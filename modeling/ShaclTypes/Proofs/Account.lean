import Mathlib.Data.List.Forall2
import ShaclTypes.Proofs.Invariant
set_option autoImplicit false

/-!
# Accounts of a resolution

An account says what is kept true of the states of a resolution, how a later state
stands to an earlier one, and which errors there can be.  A step `Runs` from a state
if it ends in a state of which all this is true, with a result of which a further
property holds or with an error of the account.

A result may refer to the model, so its property is one of a result and a state.  It
survives later steps if it is stable along the passage from one state to another;
this is what the rules for lists of steps ask for.
-/

namespace ShaclTypes

/-- The error that an event reports. -/
def Event.error? : Event → Option ResolutionError
  | memberFailed _ _ e | propertyDropped _ _ e | classFailed _ _ e => some e
  | known _ | resolving _ | memberUnknown _ _ | memberSkipped _ _ | classUnknown _ _
  | listDetected _ | finished _ _ _ => none

/-- The event reports no error but such as are described. -/
def Event.Reports (E : ResolutionError → Prop) (event : Event) : Prop :=
  ∀ e, event.error? = some e → E e

theorem Event.reports_of_error?_eq_none {E : ResolutionError → Prop} {event : Event}
    (h : event.error? = none) : event.Reports E := by
  intro e he
  rw [h] at he
  cases he

namespace Resolver

/-- What is told of a resolution. -/
structure Account where
  /-- what is kept true of the state -/
  kept : State → Prop
  /-- how a later state stands to an earlier one -/
  passes : State → State → Prop
  /-- which errors there can be -/
  error : ResolutionError → Prop

namespace Account

/-- An account that can be given step by step. -/
structure Coherent (x : Account) : Prop where
  refl : ∀ s, x.passes s s
  trans : ∀ s t u, x.passes s t → x.passes t u → x.passes s u
  log : ∀ s event, event.Reports x.error → x.kept s →
    x.kept (s.log event) ∧ x.passes s (s.log event)

variable {α β : Type} {x : Account} {P : α → State → Prop} {Q : β → State → Prop} {s : State}

/-- From a state, the step ends as the account tells, with a result as `P` says. -/
def Runs (x : Account) (P : α → State → Prop) (s : State) (step : Resolver α) : Prop :=
  Ensures (fun t => t = s) step (fun a t => x.kept t ∧ x.passes s t ∧ P a t)
    (fun e t => x.kept t ∧ x.passes s t ∧ x.error e)

/-- The property of a result survives whatever follows. -/
def Stable (x : Account) (P : α → State → Prop) : Prop :=
  ∀ a s t, x.passes s t → P a s → P a t

variable {step : Resolver α}

theorem Runs.mono {P' : α → State → Prop} (h : x.Runs P s step)
    (hP : ∀ a t, x.kept t → P a t → P' a t) : x.Runs P' s step :=
  Ensures.mono h (fun _ h => h) (fun a t h => ⟨h.1, h.2.1, hP a t h.1 h.2.2⟩) (fun _ _ h => h)

/-- A step that runs from every state that is kept, keeps it. -/
theorem Runs.ensures (h : ∀ s, x.kept s → x.Runs P s step) :
    Ensures x.kept step (fun a t => x.kept t ∧ P a t) (fun e t => x.kept t ∧ x.error e) :=
  Ensures.of_forall fun s hs =>
    Ensures.mono (h s hs) (fun _ h => h) (fun _ _ h => ⟨h.1, h.2.2⟩) (fun _ _ h => ⟨h.1, h.2.2⟩)

section Rules

variable (hx : x.Coherent)
include hx

theorem runs_pure {a : α} (hs : x.kept s) (h : P a s) : x.Runs P s (pure a) :=
  ensures_pure (by
    rintro t rfl
    exact ⟨hs, hx.refl t, h⟩)

theorem runs_throw {e : ResolutionError} (hs : x.kept s) (h : x.error e) :
    x.Runs P s (throw e) :=
  ensures_throw (by
    rintro t rfl
    exact ⟨hs, hx.refl t, h⟩)

/-- Nothing follows a step that fails. -/
theorem runs_throw_bind {e : ResolutionError} {next : β → Resolver α} (hs : x.kept s)
    (h : x.error e) : x.Runs P s ((throw e : Resolver β) >>= next) :=
  ensures_throw_bind (by
    rintro t rfl
    exact ⟨hs, hx.refl t, h⟩)

/-- What follows a step runs from wherever the step leads. -/
theorem Runs.bind {next : α → Resolver β} (h : x.Runs P s step)
    (hnext : ∀ a t, x.kept t → x.passes s t → P a t → x.Runs Q t (next a)) :
    x.Runs Q s (step >>= next) := by
  refine Ensures.bind h fun a => Ensures.of_forall fun t ht => ?_
  refine Ensures.mono (hnext a t ht.1 ht.2.1 ht.2.2) (fun _ h => h) ?_ ?_
  · exact fun _ u hu => ⟨hu.1, hx.trans s t u ht.2.1 hu.2.1, hu.2.2⟩
  · exact fun _ u hu => ⟨hu.1, hx.trans s t u ht.2.1 hu.2.1, hu.2.2⟩

theorem runs_report {event : Event} (hs : x.kept s) (h : event.Reports x.error) :
    x.Runs (fun _ _ => True) s (report event) :=
  ensures_report (by
    rintro t rfl
    obtain ⟨hkept, hpasses⟩ := hx.log t event h hs
    exact ⟨hkept, hpasses, trivial⟩)

/-- A report, and then a result that was there before. -/
theorem runs_report_bind {event : Event} {a : α} (hstable : x.Stable P) (hs : x.kept s)
    (h : event.Reports x.error) (ha : P a s) :
    x.Runs P s (report event >>= fun _ => pure a) :=
  (runs_report hx hs h).bind hx fun _ t ht hpasses _ =>
    runs_pure hx ht (hstable a s t hpasses ha)

theorem runs_ofExcept {ε : Type} {wrap : ε → ResolutionError} {answer : Except ε α}
    (hs : x.kept s) (hok : ∀ a, answer = .ok a → P a s)
    (herror : ∀ e, answer = .error e → x.error (wrap e)) :
    x.Runs P s (ofExcept wrap answer) := by
  cases answer with
  | ok a => exact runs_pure hx hs (hok a rfl)
  | error e => exact runs_throw hx hs (herror e rfl)

omit hx in
/-- What follows an attempt runs from where the step leads, be it a result or an
error. -/
theorem Runs.attempt (h : x.Runs P s step) :
    x.Runs (fun result t =>
      match result with
      | .ok a => P a t
      | .error e => x.error e) s (attempt step) := by
  refine (Ensures.attempt h).mono (fun _ h => h) ?_ (fun _ _ h => h)
  intro result t ht
  cases result <;> exact ht

omit hx in
theorem Runs.onBehalf {shape : Shape} {member : Rdf.Term} (h : x.Runs P s step)
    (hmember : ∀ e, x.error e → x.error (.memberFailed shape.identifier member e)) :
    x.Runs P s (onBehalf shape member step) := by
  rintro t rfl
  unfold Resolver.onBehalf
  rw [outcome_tryCatch]
  cases hrun : outcome step t with
  | mk result u =>
    cases result with
    | ok a => exact Ensures.ok h rfl hrun
    | error e =>
      obtain ⟨hkept, hpasses, herror⟩ := Ensures.error h rfl hrun
      exact ⟨hkept, hpasses, hmember e herror⟩

/-- A list of steps, each of which runs, gives a result for each. -/
theorem runs_mapM {R : β → α → State → Prop} {l : List β} {f : β → Resolver α}
    (hstable : ∀ b ∈ l, x.Stable (R b)) (hs : x.kept s)
    (hstep : ∀ b ∈ l, ∀ t, x.kept t → x.Runs (R b) t (f b)) :
    x.Runs (fun results t => List.Forall₂ (fun b a => R b a t) l results) s (l.mapM f) := by
  induction l generalizing s with
  | nil => exact runs_pure hx hs .nil
  | cons b l ih =>
    rw [List.mapM_cons]
    refine (hstep b List.mem_cons_self s hs).bind hx fun a t ht _ ha => ?_
    refine (ih (fun c hc => hstable c (List.mem_cons_of_mem b hc)) ht
      fun c hc => hstep c (List.mem_cons_of_mem b hc)).bind hx ?_
    intro results u hu hpasses hresults
    exact runs_pure hx hu (.cons (hstable b List.mem_cons_self a t u hpasses ha) hresults)

/-- What each step of a list gives is true of all results. -/
theorem runs_mapM_forall {l : List β} {f : β → Resolver α} (hstable : x.Stable P) (hs : x.kept s)
    (hstep : ∀ b ∈ l, ∀ t, x.kept t → x.Runs P t (f b)) :
    x.Runs (fun results t => ∀ a ∈ results, P a t) s (l.mapM f) := by
  refine (runs_mapM hx (fun _ _ => hstable) hs hstep).mono fun results t _ hresults => ?_
  clear hstep
  induction hresults with
  | nil => exact fun _ ha => nomatch ha
  | cons ha _ ih => exact List.forall_mem_cons.2 ⟨ha, ih⟩

/-- A list of steps that pass on a value which keeps its property. -/
theorem runs_foldlM {l : List β} {f : α → β → Resolver α} {a : α} (hs : x.kept s) (ha : P a s)
    (hstep : ∀ a, ∀ b ∈ l, ∀ t, x.kept t → P a t → x.Runs P t (f a b)) :
    x.Runs P s (l.foldlM f a) := by
  induction l generalizing s a with
  | nil => exact runs_pure hx hs ha
  | cons b l ih =>
    rw [List.foldlM_cons]
    refine (hstep a b List.mem_cons_self s hs ha).bind hx fun a' t ht _ ha' => ?_
    exact ih ht ha' fun a c hc => hstep a c (List.mem_cons_of_mem b hc)

/-- A list of steps without results. -/
theorem runs_forM {l : List β} {f : β → Resolver Unit} (hs : x.kept s)
    (hstep : ∀ b ∈ l, ∀ t, x.kept t → x.Runs (fun _ _ => True) t (f b)) :
    x.Runs (fun _ _ => True) s (l.forM f) := by
  induction l generalizing s with
  | nil => exact runs_pure hx hs trivial
  | cons b l ih =>
    rw [show (b :: l).forM f = (f b >>= fun _ => l.forM f) from rfl]
    refine (hstep b List.mem_cons_self s hs).bind hx fun _ t ht _ _ => ?_
    exact ih ht fun c hc => hstep c (List.mem_cons_of_mem b hc)

end Rules

end Account

end Resolver

end ShaclTypes
