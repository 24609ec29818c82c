import ShaclTypes.Proofs.Typing
set_option autoImplicit false

/-!
# What inline shapes inherit

The two settings that go down reach every depth (`settings_reach_every_depth`).  Under a
default value nothing has a cardinality.  A reference is embedded or not as the last
shape says that was passed on the way to it and says so.
-/

namespace ShaclTypes

open ShaclTypes.Rdf

/-! ## Settings -/

namespace ShapesGraph

variable {g : ShapesGraph}

/-- On a way that passes a shape with a setting and then none with another, it is this
setting that is in force at the end. -/
theorem inlineAlong_eq_some {b : Bool} {r : g.Member} {after : List g.Member}
    (hr : r.1.annotations.inline = some b)
    (hafter : ∀ q ∈ after, ∀ c ∈ q.1.annotations.inline, c = b) (inForce : Option Bool)
    (before : List g.Member) : inlineAlong inForce (before ++ r :: after) = some b := by
  unfold inlineAlong
  rw [List.foldl_append, List.foldl_cons, hr]
  change List.foldl _ (some b) after = some b
  induction after with
  | nil => rfl
  | cons q after ih =>
    rw [List.foldl_cons]
    cases hq : q.1.annotations.inline with
    | none => exact ih fun q hq => hafter q (List.mem_cons_of_mem _ hq)
    | some c =>
      obtain rfl := hafter q List.mem_cons_self c hq
      exact ih fun q hq => hafter q (List.mem_cons_of_mem _ hq)

/-- What comes later on a way is reached from its beginning. -/
theorem transGen_of_isChain {s : g.Member} {rest : List g.Member}
    (h : (s :: rest).IsChain g.Inlines) : ∀ r ∈ rest, Relation.TransGen g.Inlines s r := by
  have hchain : (s :: rest).IsChain (Relation.TransGen g.Inlines) := h.imp fun _ _ => .single
  exact fun r hr => List.rel_of_pairwise_cons hchain.pairwise hr

end ShapesGraph

namespace Resolver

variable {g : ShapesGraph} {settings : Settings} {scope : Scope} {shape : g.Member}
variable {s s' : State} {p : Property}

/-- What a property shape declares reaches every depth of its type, whatever the scope and
the state that it is resolved in.  Under a default value there is no set and no option.
If it says whether references are embedded and no inline shape below says otherwise, they
all are, or none is.  And each reference in the type is come to by a way through inline
shapes, on which the last word is with the last shape that has one. -/
theorem settings_reach_every_depth
    (hrun : outcome (property (namer g settings) (valueType g settings scope) shape) s =
      (.ok p, s')) :
    (shape.1.constraints.defaultValue.isSome = true → p.type.hasCardinality = false) ∧
    (∀ b, shape.1.annotations.inline = some b →
      (∀ r, Relation.TransGen g.Inlines shape r → ∀ c ∈ r.1.annotations.inline, c = b) →
      ∀ reference ∈ p.type.objectReferences, reference.2 = b) ∧
    ∃ introductions, Assembled g {} shape p.type introductions ∧
      p.type.objectReferences = introductions.flatMap (fun i => i.type.objectReferences) ∧
      ∀ i ∈ introductions, i.way.head? = some shape ∧ i.way.IsChain g.Inlines ∧
        ∀ before r after b, i.way = before ++ r :: after → r.1.annotations.inline = some b →
          (∀ q ∈ after, ∀ c ∈ q.1.annotations.inline, c = b) →
          ∀ reference ∈ i.type.objectReferences, reference.2 = b := by
  rw [resolveProperty_eq] at hrun
  obtain ⟨introductions, hassembled⟩ := assembled_of_property hrun
  have hlast : ∀ i ∈ introductions, ∀ before r after b, i.way = before ++ r :: after →
      r.1.annotations.inline = some b → (∀ q ∈ after, ∀ c ∈ q.1.annotations.inline, c = b) →
      ∀ reference ∈ i.type.objectReferences, reference.2 = b := by
    intro i hi before r after b hway hr hafter reference hreference
    obtain ⟨context, hcontext, hrefers⟩ := hassembled.setting i hi
    rw [hrefers.embedded hreference, hcontext, hway,
      ShapesGraph.inlineAlong_eq_some hr hafter none before]
    rfl
  refine ⟨fun hdefault => hassembled.hasCardinality ?_, fun b hb hbelow reference hmem => ?_,
    introductions, hassembled, hassembled.objectReferences,
    fun i hi => ⟨(hassembled.way i hi).1, (hassembled.way i hi).2, hlast i hi⟩⟩
  · simpa [Inherited.within] using hdefault
  · rw [hassembled.objectReferences] at hmem
    obtain ⟨i, hi, hreference⟩ := List.mem_flatMap.1 hmem
    obtain ⟨hhead, hchain⟩ := hassembled.way i hi
    obtain ⟨rest, hway⟩ := List.head?_eq_some_iff.1 hhead
    rw [hway] at hchain
    exact hlast i hi [] shape rest b hway hb
      (fun q hq => hbelow q (ShapesGraph.transGen_of_isChain hchain q hq)) reference hreference

/-! A visit leads to a place nearby, where up to three stops are made, or to one far off,
which is not embedded.  Home is the default. -/

/-- Places. -/
def place : Shape := { identifier := .blank "place" }

/-- A place nearby. -/
def nearby : Shape where
  identifier := .blank "nearby"
  constraints := { nodes := [place.identifier], maxCount := some 3 }

/-- A place far off. -/
def farOff : Shape where
  identifier := .blank "far off"
  constraints := { nodes := [place.identifier] }
  annotations := { inline := some false }

/-- Visits. -/
def visit : Shape where
  identifier := .blank "visit"
  path := some (.predicate ⟨"visits"⟩)
  constraints := {
    anyOf := [nearby.identifier, farOff.identifier]
    defaultValue := some (.blank "home") }
  annotations := { inline := some true }

/-- The graph of visits. -/
def visits : ShapesGraph where
  shapes := [place, nearby, farOff, visit]
  declared := [place.identifier]
  hierarchy := .empty
  prefixes := .empty

/-- Visits, in their graph. -/
def visitMember : visits.Member := ⟨visit, by simp [visits]⟩

theorem settings_reach_every_depth_visit : ∃ p s',
    outcome (property (namer visits .standard) (valueType visits .standard .outermost) visitMember)
      .empty = (.ok p, s') ∧
    p.type.hasCardinality = false ∧ p.type.objectReferences = [(⟨0⟩, true), (⟨0⟩, false)] ∧
    ∃ introductions, Assembled visits {} visitMember p.type introductions := by
  have hresult : (outcome (property (namer visits .standard)
      (valueType visits .standard .outermost) visitMember) .empty).1.toOption.map
        (fun p => p.type.objectReferences) = some [(⟨0⟩, true), (⟨0⟩, false)] := by decide +kernel
  cases hrun : outcome (property (namer visits .standard)
      (valueType visits .standard .outermost) visitMember) .empty with
  | mk result s' =>
    rw [hrun] at hresult
    cases result with
    | error e => cases hresult
    | ok p =>
      obtain ⟨hdefault, -, introductions, hassembled, -⟩ := settings_reach_every_depth hrun
      exact ⟨p, s', rfl, hdefault rfl, Option.some.inj hresult, introductions, hassembled⟩

end Resolver

end ShaclTypes
