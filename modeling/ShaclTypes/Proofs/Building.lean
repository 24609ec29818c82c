import ShaclTypes.Proofs.Ledger
import ShaclTypes.Proofs.Typing
set_option autoImplicit false

/-!
# What building a node shape keeps

A node shape is built in two movements: a place is taken for it, and the place is
filled.  Filling changes the state only by resolving what the shape leads to and
by changing the entry in the place, so a description of the state that survives
both is kept.
-/

namespace ShaclTypes

open ShaclTypes.Rdf

namespace Resolver

variable {g : ShapesGraph} {I : State → Prop}

theorem keeps_report {e : Event} (hlog : ∀ s e, I s → I (s.log e)) : Keeps I (report e) :=
  ensures_report fun s hs => hlog s e hs

/-! ## Composites -/

section Composites

variable {shape : Shape} {kind : CompositeKind} {id : CompositeId} {members : List Term}
variable {resolve : NodeResolver g}

theorem keeps_addMember {met : List ObjectId} {member : Term}
    (hlog : ∀ s e, I s → I (s.log e))
    (hresolve : ∀ s, g.member? member = some s → Keeps I (resolve s)) :
    Keeps I (addMember shape resolve met member) := by
  unfold addMember
  split
  · exact (keeps_report hlog).bind fun _ => keeps_pure _
  · next s hs =>
    refine (hresolve s hs).attempt.bind fun result => ?_
    split
    · exact keeps_pure _
    · exact (keeps_report hlog).bind fun _ => keeps_pure _
    · exact (keeps_report hlog).bind fun _ => keeps_pure _

theorem keeps_fillComposite (hlog : ∀ s e, I s → I (s.log e))
    (hresolve : ∀ member ∈ members, ∀ s, g.member? member = some s → Keeps I (resolve s))
    (hfill : ∀ s ids model, I s → s.model.fillComposite kind id ids = .ok model →
      I { s with model := model }) :
    Keeps I (fillComposite shape kind id members resolve) := by
  refine (keeps_foldlM fun _ member hmember =>
    keeps_addMember hlog (hresolve member hmember)).bind fun ids => ?_
  refine ensures_get_bind fun s hs => ?_
  have hfilled : Ensures (fun t => t = s)
      (ofExcept (.tooFewResolved shape.identifier) (s.model.fillComposite kind id ids))
      (fun model t => t = s ∧ s.model.fillComposite kind id ids = .ok model) (fun _ => I) :=
    ensures_ofExcept (fun model hmodel t ht => ⟨ht, hmodel⟩) fun _ _ t ht => ht ▸ hs
  refine hfilled.bind fun model => ensures_modify ?_
  intro t h
  obtain ⟨rfl, hmodel⟩ := h
  exact hfill t ids model hs hmodel

end Composites

/-! ## Object types -/

section Objects

variable {n : Namer} {shape : Shape} {id : ObjectId} {resolve : NodeResolver g}
variable {typer : ValueTyper g}

theorem keeps_resolveRelatives {kinship : Kinship}
    (hresolve : ∀ s ∈ g.relatives kinship shape, Keeps I (resolve s)) :
    Keeps I (resolveRelatives shape kinship resolve) :=
  (keeps_mapM hresolve).bind fun _ => keeps_pure _

theorem keeps_property {s : g.Member} (htyper : Keeps I (typer {} s)) :
    Keeps I (property n typer s) := by
  unfold property
  split
  · exact keeps_throw _
  · split
    · exact keeps_throw _
    · exact htyper.bind fun _ => keeps_pure _

variable (hlog : ∀ s e, I s → I (s.log e))
variable (hmodify : ∀ s f, (∀ o : ObjectType, (f o).unfilled = o.unfilled) → I s →
  I { s with model := s.model.modifyObject id f })
include hlog hmodify

theorem keeps_addProperty {s : g.Member} (hproperty : Keeps I (property n typer s)) :
    Keeps I (addProperty n shape id typer s) := by
  refine hproperty.attempt.bind fun result => ?_
  split
  · exact ensures_modify fun t ht => hmodify t _ (fun _ => rfl) ht
  · exact keeps_report hlog

theorem keeps_detectList : Keeps I (detectList g shape id) := by
  refine ensures_get_bind fun s hs => ?_
  split
  · exact ensures_pure fun _ ht => ht ▸ hs
  · have hreport : Ensures (fun t => t = s) (report (.listDetected shape.identifier))
        (fun _ => I) (fun _ => I) := ensures_report fun t ht => hlog t _ (ht ▸ hs)
    exact hreport.bind fun _ => ensures_modify fun t ht => hmodify t _ (fun _ => rfl) ht

theorem keeps_fillObject
    (hrelatives : ∀ kinship, Keeps I (resolveRelatives shape kinship resolve))
    (hproperty : ∀ properties, g.propertyShapes shape = .ok properties →
      ∀ s ∈ properties, Keeps I (property n typer s)) :
    Keeps I (fillObject n shape id resolve typer) := by
  have hlink : Keeps I (linkRelatives shape id resolve) := by
    refine (hrelatives _).bind fun _ => (hrelatives _).bind fun _ => ?_
    refine (hrelatives _).bind fun _ => (hrelatives _).bind fun _ => ?_
    exact ensures_modify fun t ht => hmodify t _ (fun _ => rfl) ht
  refine hlink.bind fun _ => ?_
  have hshapes : Ensures I (ofExcept .shapes (g.propertyShapes shape))
      (fun properties t => I t ∧ g.propertyShapes shape = .ok properties) (fun _ => I) :=
    ensures_ofExcept (fun _ hproperties _ ht => ⟨ht, hproperties⟩) fun _ _ _ ht => ht
  refine hshapes.bind fun properties => Ensures.of_fact fun hproperties => ?_
  exact (keeps_forM fun s hs => keeps_addProperty hlog hmodify
    (hproperty properties hproperties s hs)).bind fun _ => keeps_detectList hlog hmodify

end Objects

end Resolver

end ShaclTypes
