/-
# Prerequisites

A shipment can be given other shipments as prerequisites. Before it is, the contract
searches the prerequisites of the new one for the shipment itself. The search looks at
what is stored, whatever that is, and answers exactly whether the shipment is found; so
no sequence of calls closes a circle.

Key definitions:
- `World.HasPrerequisite`;
- `World.Layered`: finitely many prerequisites, and no circle.

Key theorems:
- `wouldCreateCycle_iff`: the search ends, and its answer is exact;
- `Step.hasPrerequisite`: what a step does to the prerequisites;
- `dependencies_acyclic`.
-/
import Navin.Lib.Search
import Navin.Outsiders

namespace Navin

open Tx

variable {H : Host} {env : Env} {w w' : World H} {id prereq : ℕ}

/-! ### The search -/

/-- The first shipment has the second as a prerequisite. -/
def World.HasPrerequisite (w : World H) (a b : ℕ) : Prop := b ∈ w.dossier.shipmentDependents a

/-- The loop is a depth-first search; what is pushed last is looked at first. -/
theorem wouldCreateCycleLoop_of_finds {d : Dossier} {visited stack : List ℕ} {b : Bool}
    (h : Finds (fun a => (d.shipmentDependents a).reverse) id visited stack b) :
    d.wouldCreateCycleLoop id visited stack = some b := by
  induction h with
  | empty => rw [Dossier.wouldCreateCycleLoop.eq_def]
  | found =>
    rw [Dossier.wouldCreateCycleLoop.eq_def]
    exact if_pos rfl
  | skip hne hvis _ ih =>
    rw [Dossier.wouldCreateCycleLoop.eq_def]
    dsimp only
    rw [if_neg hne, if_pos hvis, ih]
  | visit hne hnew _ ih =>
    rw [Dossier.wouldCreateCycleLoop.eq_def]
    dsimp only
    rw [if_neg hne, if_neg hnew, ih]

theorem follows_eq (w : World H) :
    Follows (fun a => (w.dossier.shipmentDependents a).reverse) = w.HasPrerequisite := by
  funext a b
  exact propext List.mem_reverse

/-- Over a finite relation the search ends, with an answer that is exact. -/
theorem wouldCreateCycle_iff (hfin : {a | w.dossier.shipmentDependents a ≠ []}.Finite)
    (id prereq : ℕ) : ∃ b, w.wouldCreateCycle id prereq = some b ∧
      (b = true ↔ Relation.ReflTransGen w.HasPrerequisite prereq id) := by
  have hfin' : {a | (w.dossier.shipmentDependents a).reverse ≠ []}.Finite := by
    simpa only [ne_eq, List.reverse_eq_nil_iff] using hfin
  obtain ⟨b, hb⟩ := exists_finds (d := id) hfin' [] [prereq]
  refine ⟨b, wouldCreateCycleLoop_of_finds hb, ?_⟩
  rw [hb.iff_reaches, follows_eq]

/-! ### What a step does -/

/-- A prerequisite is added only where the search found no circle. -/
theorem wp_addShipmentDependency {a : Address} :
    wp (addShipmentDependency a id prereq) env w fun _ _ =>
      w.wouldCreateCycle id prereq = some false := by
  unfold addShipmentDependency
  simp only [wp_bind, wp_gets, wp_rejectIf, wp_unwrap, wp_modifyDossier]
  refine wp_openCall fun _ _ => ?_
  intro _ _ _ cycle hcycle hno
  have hsame : (w.signed a).wouldCreateCycle id prereq = w.wouldCreateCycle id prereq := rfl
  rw [← hsame, hcycle]
  simpa using hno

variable {c c' : Chain H} {l : Label}

/-- A step keeps the prerequisites, or gives one to a shipment that is not found from it. -/
theorem Step.hasPrerequisite (hstep : Step c l c') :
    c'.world.dossier.shipmentDependents = c.world.dossier.shipmentDependents ∨
    ∃ id prereq, c.world.wouldCreateCycle id prereq = some false ∧
      c'.world.dossier.shipmentDependents = Function.update c.world.dossier.shipmentDependents id
        (c.world.dossier.shipmentDependents id ++ [prereq]) := by
  have hcheck : ∀ a id prereq env trace,
      l = .committed (.addShipmentDependency a id prereq) env trace →
      c.world.wouldCreateCycle id prereq = some false := by
    rintro a id prereq env trace rfl
    cases hstep with
    | @committed _ _ w' _ hx => exact wp_addShipmentDependency (w := c.world.fresh) () w' hx
  rcases hstep.filed with ⟨call, env, trace, hl, hf⟩ | ⟨-, heq⟩
  · have hread : ∀ w : World H, w.papers.shipmentDependents = w.dossier.shipmentDependents := fun _ => rfl
    rw [← hread, ← hread]
    generalize c'.world.papers = q at hf
    cases hf with
    | @dependency a id prereq => exact .inr ⟨id, prereq, hcheck a id prereq env trace hl, rfl⟩
    | _ => exact .inl rfl
  · exact .inl (congrArg Papers.shipmentDependents heq)

/-! ### Runs -/

/-- Finitely many prerequisites, and no circle of them. -/
structure World.Layered (w : World H) : Prop where
  finite : {a | w.dossier.shipmentDependents a ≠ []}.Finite
  acyclic : Acyclic w.HasPrerequisite

theorem World.Layered.congr (h : w.Layered)
    (hw : w'.dossier.shipmentDependents = w.dossier.shipmentDependents) : w'.Layered := by
  have hrel : w'.HasPrerequisite = w.HasPrerequisite := by
    unfold World.HasPrerequisite
    rw [hw]
  refine ⟨?_, ?_⟩
  · rw [hw]
    exact h.finite
  · rw [hrel]
    exact h.acyclic

/-- One more prerequisite, which the search let through. -/
theorem World.Layered.insert (h : w.Layered) (hno : w.wouldCreateCycle id prereq = some false)
    (hw : w'.dossier.shipmentDependents = Function.update w.dossier.shipmentDependents id
      (w.dossier.shipmentDependents id ++ [prereq])) : w'.Layered := by
  have hrel : w'.HasPrerequisite = Insert w.HasPrerequisite id prereq := by
    funext a b
    show (b ∈ w'.dossier.shipmentDependents a) = (b ∈ w.dossier.shipmentDependents a ∨ _)
    rw [hw]
    by_cases ha : a = id
    · subst ha
      simp
    · simp [ha]
  refine ⟨?_, ?_⟩
  · apply (h.finite.insert id).subset
    intro a ha
    by_cases hid : a = id
    · exact .inl hid
    · have ha : w'.dossier.shipmentDependents a ≠ [] := ha
      rw [hw, Function.update_of_ne hid] at ha
      exact .inr ha
  · rw [hrel]
    apply h.acyclic.insert
    intro hr
    obtain ⟨b, hb, hiff⟩ := wouldCreateCycle_iff h.finite id prereq
    rw [hiff.mpr hr, hno] at hb
    cases hb

theorem Reachable.layered (hc : Reachable c) : c.world.Layered := by
  refine hc.inv (I := fun c => c.world.Layered) (fun _ _ => ⟨?_, ?_⟩) fun a l b _ h hstep => ?_
  · have hnone : {a : ℕ | ([] : List ℕ) ≠ []} = ∅ := by simp
    exact hnone ▸ Set.finite_empty
  · intro a hcycle
    obtain ⟨b, -, hb⟩ := Relation.TransGen.tail'_iff.mp hcycle
    cases hb
  · rcases hstep.hasPrerequisite with hkept | ⟨id, prereq, hno, hadded⟩
    · exact h.congr hkept
    · exact h.insert hno hadded

/-- In every reachable state no shipment is among its own direct or indirect
prerequisites; and over every finite relation that can be stored, with circles or without,
the search for a shipment among the prerequisites of another ends, and answers whether it
is reached from there in any number of steps. -/
theorem dependencies_acyclic : (∀ c : Chain H, Reachable c → Acyclic c.world.HasPrerequisite) ∧
    ∀ (w : World H) (id prereq : ℕ), {a | w.dossier.shipmentDependents a ≠ []}.Finite →
      ∃ b, w.wouldCreateCycle id prereq = some b ∧
        (b = true ↔ Relation.ReflTransGen w.HasPrerequisite prereq id) :=
  ⟨fun _ hc => hc.layered.acyclic, fun _ id prereq hfin => wouldCreateCycle_iff hfin id prereq⟩

/-- After the first shipment is put behind the second, the search finds the second behind
the first. -/
theorem dependencies_acyclic_chain : ∃ c : Chain Deployment.host, Reachable c ∧
    c.world.HasPrerequisite 1 2 ∧ Acyclic c.world.HasPrerequisite ∧
      c.world.wouldCreateCycle 2 1 = some true := by
  obtain ⟨ls, c, hr, -, hnow, hinit, hs, hs₂, hd⟩ := exists_play Deployment.chain
    (Deployment.opening ++ [Deployment.signed Deployment.company 5
      (.createShipment Deployment.company { Deployment.shipment with dataHash := 2 })])
    (fun r => r.2.now ≤ 6 ∧
      (r.2.world.isInitialized = true ∧ r.2.world.governance.isPaused = false) ∧
      r.2.world.getShipment 1 ≠ none ∧ r.2.world.getShipment 2 ≠ none ∧
      r.2.world.dossier.shipmentDependents 2 = [])
    (by decide +kernel)
  let env : Env := ⟨6, 6, fun a => a = Deployment.treasury, fun _ => true⟩
  have hstep : Step c (.committed (.addShipmentDependency Deployment.treasury 1 2) env
      [.auth Deployment.treasury]) ⟨(c.world.dependent 1 2).fresh, env.timestamp⟩ :=
    step_addShipmentDependency ⟨hnow, by decide⟩ ⟨hinit.1, hinit.2, by decide⟩ (by decide) hs hs₂ hd
  have hc : Reachable c := ⟨_, ls, Deployment.deployed, hr⟩
  have hc' := hc.step hstep
  obtain ⟨hacyclic, hexact⟩ := dependencies_acyclic (H := Deployment.host)
  have hedge : (c.world.dependent 1 2).fresh.HasPrerequisite 1 2 := by
    show 2 ∈ Function.update c.world.dossier.shipmentDependents 1
      (c.world.dossier.shipmentDependents 1 ++ [2]) 1
    rw [Function.update_self]
    exact List.mem_append_right _ List.mem_cons_self
  obtain ⟨b, hb, hiff⟩ := hexact (c.world.dependent 1 2).fresh 2 1 hc'.layered.finite
  refine ⟨_, hc', hedge, hacyclic _ hc', ?_⟩
  rw [← hiff.mpr (.single hedge)]
  exact hb

end Navin
