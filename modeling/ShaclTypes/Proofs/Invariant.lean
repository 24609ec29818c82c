import ShaclTypes.Resolution.Value
set_option autoImplicit false

/-!
# What a step of a resolution ensures

`Ensures before step after failed` says how a step may end when it starts from a
state as `before` describes: with a result and a state as `after` describes, or
with an error and a state as `failed` describes.  There is one rule for each way
of making a step, so that a composed step is taken apart along its construction
and never run.  `Keeps` is the special case in which one description of the
state holds before and after, whatever the end.
-/

namespace ShaclTypes

namespace Resolver

variable {α β : Type}

/-- From every state as described by `before`, the step ends as described by
`after` or, if it fails, as described by `failed`. -/
def Ensures (before : State → Prop) (step : Resolver α) (after : α → State → Prop)
    (failed : ResolutionError → State → Prop) : Prop :=
  ∀ s, before s →
    match outcome step s with
    | (.ok a, t) => after a t
    | (.error e, t) => failed e t

/-- The step keeps a description of the state, whether it fails or not. -/
def Keeps (I : State → Prop) (step : Resolver α) : Prop :=
  Ensures I step (fun _ => I) (fun _ => I)

section Rules

variable {before before' : State → Prop} {after after' : α → State → Prop}
variable {failed failed' : ResolutionError → State → Prop} {step : Resolver α}

theorem Ensures.ok {s t : State} {a : α} (h : Ensures before step after failed) (hs : before s)
    (hrun : outcome step s = (.ok a, t)) : after a t := by
  simpa only [hrun] using h s hs

theorem Ensures.error {s t : State} {e : ResolutionError}
    (h : Ensures before step after failed) (hs : before s)
    (hrun : outcome step s = (.error e, t)) : failed e t := by
  simpa only [hrun] using h s hs

/-- A step ensures more from less, and less from more. -/
theorem Ensures.mono (h : Ensures before step after failed) (hbefore : ∀ s, before' s → before s)
    (hafter : ∀ a t, after a t → after' a t) (hfailed : ∀ e t, failed e t → failed' e t) :
    Ensures before' step after' failed' := by
  intro s hs
  cases hrun : outcome step s with
  | mk result t =>
    cases result with
    | ok a => exact hafter a t (h.ok (hbefore s hs) hrun)
    | error e => exact hfailed e t (h.error (hbefore s hs) hrun)

/-- What a step ensures by two accounts, it ensures at once. -/
theorem Ensures.and (h : Ensures before step after failed)
    (h' : Ensures before step after' failed') :
    Ensures before step (fun a t => after a t ∧ after' a t) (fun e t => failed e t ∧ failed' e t) := by
  intro s hs
  cases hrun : outcome step s with
  | mk result t =>
    cases result with
    | ok a => exact ⟨h.ok hs hrun, h'.ok hs hrun⟩
    | error e => exact ⟨h.error hs hrun, h'.error hs hrun⟩

/-- A step can be examined from each of its first states in turn. -/
theorem Ensures.of_forall
    (h : ∀ s, before s → Ensures (fun s' => s' = s) step after failed) :
    Ensures before step after failed :=
  fun s hs => h s hs s rfl

/-- A fact that does not depend on the state can be assumed beforehand. -/
theorem Ensures.of_fact {fact : Prop} (h : fact → Ensures before step after failed) :
    Ensures (fun s => before s ∧ fact) step after failed := fun s hs => h hs.2 s hs.1

theorem ensures_pure {a : α} (h : ∀ s, before s → after a s) :
    Ensures before (pure a) after failed := fun s hs => h s hs

theorem ensures_throw {e : ResolutionError} (h : ∀ s, before s → failed e s) :
    Ensures before (throw e : Resolver α) after failed := fun s hs => h s hs

/-- Nothing follows a step that fails. -/
theorem ensures_throw_bind {e : ResolutionError} {next : β → Resolver α}
    (h : ∀ s, before s → failed e s) :
    Ensures before ((throw e : Resolver β) >>= next) after failed := fun s hs => h s hs

theorem ensures_modify {f : State → State} {after : Unit → State → Prop}
    (h : ∀ s, before s → after () (f s)) : Ensures before (modify f) after failed :=
  fun s hs => h s hs

theorem ensures_report {e : Event} {after : Unit → State → Prop}
    (h : ∀ s, before s → after () (s.log e)) : Ensures before (report e) after failed :=
  fun s hs => h s hs

theorem ensures_ofExcept {ε : Type} {wrap : ε → ResolutionError} {answer : Except ε α}
    (hok : ∀ a, answer = .ok a → ∀ s, before s → after a s)
    (herror : ∀ e, answer = .error e → ∀ s, before s → failed (wrap e) s) :
    Ensures before (ofExcept wrap answer) after failed := by
  intro s hs
  cases answer with
  | ok a => exact hok a rfl s hs
  | error e => exact herror e rfl s hs

/-- What the first step ensures is what the second may rely on. -/
theorem Ensures.bind {middle : α → State → Prop} {after : β → State → Prop}
    {next : α → Resolver β} (h : Ensures before step middle failed)
    (hnext : ∀ a, Ensures (middle a) (next a) after failed) :
    Ensures before (step >>= next) after failed := by
  intro s hs
  rw [outcome_bind]
  cases hrun : outcome step s with
  | mk result t =>
    cases result with
    | ok a => exact hnext a t (h.ok hs hrun)
    | error e => exact h.error hs hrun

/-- What is done with the state may rely on all that is known about it. -/
theorem ensures_get_bind {next : State → Resolver α}
    (h : ∀ s, before s → Ensures (fun s' => s' = s) (next s) after failed) :
    Ensures before (get >>= next) after failed := by
  intro s hs
  rw [outcome_bind, outcome_get]
  exact h s hs s rfl

/-- A step that is attempted does not fail. -/
theorem Ensures.attempt (h : Ensures before step after failed) :
    Ensures before (attempt step)
      (fun result t =>
        match result with
        | .ok a => after a t
        | .error e => failed e t)
      failed' := by
  intro s hs
  rw [outcome_attempt]
  cases hrun : outcome step s with
  | mk result t =>
    cases result with
    | ok a => exact h.ok hs hrun
    | error e => exact h.error hs hrun

/-- The failure of a member is a failure of its composite, in the same state. -/
theorem Ensures.onBehalf {shape : Shape} {member : Rdf.Term}
    (h : Ensures before step after fun _ => before') :
    Ensures before (onBehalf shape member step) after fun _ => before' := by
  intro s hs
  unfold Resolver.onBehalf
  rw [outcome_tryCatch]
  cases hrun : outcome step s with
  | mk result t =>
    cases result with
    | ok a => exact h.ok hs hrun
    | error e => exact h.error hs hrun

/-- A transaction that fails goes back to where it began. -/
theorem Ensures.transaction {s : State}
    (h : Ensures (fun t => t = s) step after fun e t => failed e (t.rollback s.model.extent)) :
    Ensures (fun t => t = s) (transaction step) after failed := by
  rintro t rfl
  rw [outcome_transaction]
  cases hrun : outcome step t with
  | mk result u =>
    cases result with
    | ok a => exact h.ok rfl hrun
    | error e => exact h.error rfl hrun

end Rules

/-- A node shape that is resolved is known, and one that is not is built in a
transaction and recorded. -/
theorem ensures_once {identifier : Rdf.Term} {step : Resolver NodeType} {s : State}
    {after : NodeType → State → Prop} {failed : ResolutionError → State → Prop}
    (hknown : ∀ type, s.resolved? identifier = some type →
      after type (s.log (.known identifier)))
    (hbuild : s.resolved? identifier = none →
      Ensures (fun t => t = s.log (.resolving identifier)) step
        (fun type t => after type (t.record identifier type))
        (fun e t => failed e (t.rollback s.model.extent))) :
    Ensures (fun t => t = s) (once identifier step) after failed := by
  refine ensures_get_bind ?_
  rintro t rfl
  cases hresolved : t.resolved? identifier with
  | some type =>
    have hreport : Ensures (fun u => u = t) (report (.known identifier)) (fun _ => after type)
        failed := ensures_report fun u hu => hu ▸ hknown type hresolved
    exact hreport.bind fun _ => ensures_pure fun _ h => h
  | none =>
    have hreport : Ensures (fun u => u = t) (report (.resolving identifier))
        (fun _ u => u = t.log (.resolving identifier)) failed :=
      ensures_report fun u hu => hu ▸ rfl
    refine hreport.bind fun _ => (hbuild hresolved).transaction.bind fun type => ?_
    have hrecord : Ensures (fun u => after type (u.record identifier type))
        (modify (·.record identifier type)) (fun _ => after type) failed :=
      ensures_modify fun _ h => h
    exact hrecord.bind fun _ => ensures_pure fun _ h => h

/-! ## Lists of steps -/

/-- A list of steps, with a description of the state after each beginning of the
list and its results. -/
theorem ensures_mapM (Inv : List α → List β → State → Prop)
    {failed : ResolutionError → State → Prop} {f : α → Resolver β} :
    ∀ (todo done : List α) (results : List β),
      (∀ done results, ∀ a ∈ todo,
        Ensures (Inv done results) (f a) (fun b => Inv (done ++ [a]) (results ++ [b])) failed) →
      Ensures (Inv done results) (todo.mapM f)
        (fun more => Inv (done ++ todo) (results ++ more)) failed := by
  intro todo
  induction todo with
  | nil =>
    intro done results _
    rw [List.mapM_nil]
    exact ensures_pure (by simp)
  | cons a todo ih =>
    intro done results hstep
    rw [List.mapM_cons]
    refine (hstep done results a List.mem_cons_self).bind fun b => ?_
    refine Ensures.bind
      (ih (done ++ [a]) (results ++ [b]) fun d r c hc => hstep d r c (List.mem_cons_of_mem a hc))
      fun more => ensures_pure ?_
    intro s hs
    simpa using hs

/-- A list of steps without results, with a description of the state after each
beginning of the list. -/
theorem ensures_forM (Inv : List α → State → Prop) {failed : ResolutionError → State → Prop}
    {f : α → Resolver Unit} :
    ∀ (todo done : List α),
      (∀ done, ∀ a ∈ todo, Ensures (Inv done) (f a) (fun _ => Inv (done ++ [a])) failed) →
      Ensures (Inv done) (todo.forM f) (fun _ => Inv (done ++ todo)) failed := by
  intro todo
  induction todo with
  | nil =>
    intro done _
    exact ensures_pure (by simp)
  | cons a todo ih =>
    intro done hstep
    rw [show (a :: todo).forM f = (f a >>= fun _ => todo.forM f) from rfl]
    refine (hstep done a List.mem_cons_self).bind fun _ => ?_
    refine (ih (done ++ [a]) fun d c hc => hstep d c (List.mem_cons_of_mem a hc)).mono
      (fun _ h => h) ?_ (fun _ _ h => h)
    intro _ s hs
    simpa using hs

/-- A list of steps that pass on a value, with a description of the state after
each beginning of the list and of the value. -/
theorem ensures_foldlM (Inv : List α → β → State → Prop) {failed : ResolutionError → State → Prop}
    {f : β → α → Resolver β} :
    ∀ (todo done : List α) (b : β),
      (∀ done b, ∀ a ∈ todo, Ensures (Inv done b) (f b a) (fun c => Inv (done ++ [a]) c) failed) →
      Ensures (Inv done b) (todo.foldlM f b) (fun c => Inv (done ++ todo) c) failed := by
  intro todo
  induction todo with
  | nil =>
    intro done b _
    exact ensures_pure (by simp)
  | cons a todo ih =>
    intro done b hstep
    rw [List.foldlM_cons]
    refine (hstep done b a List.mem_cons_self).bind fun c => ?_
    refine (ih (done ++ [a]) c fun d b' a' ha' => hstep d b' a' (List.mem_cons_of_mem a ha')).mono
      (fun _ h => h) ?_ (fun _ _ h => h)
    intro _ s hs
    simpa using hs

/-! ## Keeping a description -/

section Keeping

variable {I : State → Prop} {step : Resolver α}

theorem Keeps.apply {s : State} (h : Keeps I step) (hs : I s) : I (outcome step s).2 := by
  cases hrun : outcome step s with
  | mk result t =>
    cases result with
    | ok a => exact h.ok hs hrun
    | error e => exact h.error hs hrun

theorem keeps_pure (a : α) : Keeps I (pure a) := ensures_pure fun _ hs => hs

theorem keeps_throw (e : ResolutionError) : Keeps I (throw e : Resolver α) :=
  ensures_throw fun _ hs => hs

theorem Keeps.bind {next : α → Resolver β} (h : Keeps I step) (hnext : ∀ a, Keeps I (next a)) :
    Keeps I (step >>= next) := Ensures.bind h hnext

theorem Keeps.attempt (h : Keeps I step) : Keeps I (attempt step) := by
  refine (Ensures.attempt h).mono (fun _ hs => hs) ?_ (fun _ _ ht => ht)
  intro result _ ht
  cases result <;> exact ht

theorem Keeps.onBehalf {shape : Shape} {member : Rdf.Term} (h : Keeps I step) :
    Keeps I (onBehalf shape member step) := Ensures.onBehalf h

theorem keeps_mapM {f : α → Resolver β} {l : List α} (h : ∀ a ∈ l, Keeps I (f a)) :
    Keeps I (l.mapM f) :=
  ensures_mapM (fun _ _ => I) l [] [] fun _ _ a ha => h a ha

theorem keeps_foldlM {f : β → α → Resolver β} {l : List α} {b : β}
    (h : ∀ b, ∀ a ∈ l, Keeps I (f b a)) : Keeps I (l.foldlM f b) :=
  ensures_foldlM (fun _ _ => I) l [] b fun _ b a ha => h b a ha

theorem keeps_forM {f : α → Resolver Unit} {l : List α} (h : ∀ a ∈ l, Keeps I (f a)) :
    Keeps I (l.forM f) :=
  ensures_forM (fun _ => I) l [] fun _ a ha => h a ha

end Keeping

end Resolver

end ShaclTypes
