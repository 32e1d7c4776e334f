/-
# Depth-first search with a stack

A search for `d` along the successors `next` takes vertices off a stack, passes over those
it has visited, and puts the successors of the others on the stack. The stack can hold a
vertex several times, and it can grow; what goes down is the number of vertices with
successors that are not visited.

An edge that no path leads back across keeps a relation without cycles free of them.

Key definitions:
- `Finds next d visited stack b`: the search ends with the answer `b`;
- `Acyclic r`: no vertex is reached from itself.

Key theorems:
- `Finds.iff_reaches`: the answer is whether `d` is reached;
- `exists_finds`: with finitely many vertices that have successors the search ends;
- `Acyclic.insert`.
-/
import Mathlib.Data.Finset.Card
import Mathlib.Data.Set.Finite.Basic
import Mathlib.Logic.Relation

namespace Navin

variable {V : Type}

/-! ### The search -/

/-- The search for `d` with these vertices visited and these on the stack ends with an
answer. -/
inductive Finds (next : V → List V) (d : V) : List V → List V → Bool → Prop
  | empty {visited : List V} : Finds next d visited [] false
  | found {visited stack : List V} : Finds next d visited (d :: stack) true
  | skip {visited stack : List V} {x : V} {b : Bool} : x ≠ d → x ∈ visited →
      Finds next d visited stack b → Finds next d visited (x :: stack) b
  | visit {visited stack : List V} {x : V} {b : Bool} : x ≠ d → x ∉ visited →
      Finds next d (visited ++ [x]) (next x ++ stack) b → Finds next d visited (x :: stack) b

/-- An edge of the graph. -/
def Follows (next : V → List V) (a b : V) : Prop := b ∈ next a

variable {next : V → List V} {d p : V} {visited stack : List V}

/-- What is found is reached from the stack. -/
theorem Finds.reaches {b : Bool} (h : Finds next d visited stack b) (hb : b = true) :
    ∃ x ∈ stack, Relation.ReflTransGen (Follows next) x d := by
  induction h with
  | empty => cases hb
  | found => exact ⟨d, List.mem_cons_self, .refl⟩
  | skip _ _ _ ih =>
    obtain ⟨y, hy, hr⟩ := ih hb
    exact ⟨y, List.mem_cons_of_mem _ hy, hr⟩
  | @visit _ _ x _ _ _ _ ih =>
    obtain ⟨y, hy, hr⟩ := ih hb
    rcases List.mem_append.mp hy with hy | hy
    · exact ⟨x, List.mem_cons_self, .head hy hr⟩
    · exact ⟨y, List.mem_cons_of_mem _ hy, hr⟩

/-- Nothing visited is `d`, and what follows it is visited or on the stack. -/
def Explored (next : V → List V) (d : V) (visited stack : List V) : Prop :=
  ∀ x ∈ visited, x ≠ d ∧ ∀ y ∈ next x, y ∈ visited ∨ y ∈ stack

/-- A search that finds nothing has gone through vertices that no edge leaves. -/
theorem Finds.closed {b : Bool} (h : Finds next d visited stack b) (hb : b = false)
    (he : Explored next d visited stack) :
    ∃ seen : Set V, (∀ x ∈ visited, x ∈ seen) ∧ (∀ x ∈ stack, x ∈ seen) ∧ d ∉ seen ∧
      ∀ x ∈ seen, ∀ y ∈ next x, y ∈ seen := by
  induction h with
  | @empty visited =>
    refine ⟨{x | x ∈ visited}, fun _ hx => hx, fun _ hx => (by cases hx), ?_, ?_⟩
    · exact fun hd => (he d hd).1 rfl
    · intro x hx y hy
      exact ((he x hx).2 y hy).resolve_right (by simp)
  | found => cases hb
  | @skip visited stack x _ hne hvis _ ih =>
    obtain ⟨seen, hv, hs, hd, hclosed⟩ := ih hb fun y hy =>
      ⟨(he y hy).1, fun z hz => by
        rcases (he y hy).2 z hz with hz | hz
        · exact .inl hz
        · rcases List.mem_cons.mp hz with rfl | hz
          · exact .inl hvis
          · exact .inr hz⟩
    refine ⟨seen, hv, fun y hy => ?_, hd, hclosed⟩
    rcases List.mem_cons.mp hy with rfl | hy
    · exact hv _ hvis
    · exact hs y hy
  | @visit visited stack x _ hne hnew _ ih =>
    obtain ⟨seen, hv, hs, hd, hclosed⟩ := ih hb fun y hy => by
      rcases List.mem_append.mp hy with hy | hy
      · refine ⟨(he y hy).1, fun z hz => ?_⟩
        rcases (he y hy).2 z hz with hz | hz
        · exact .inl (List.mem_append_left _ hz)
        · rcases List.mem_cons.mp hz with rfl | hz
          · exact .inl (by simp)
          · exact .inr (List.mem_append_right _ hz)
      · obtain rfl := List.mem_singleton.mp hy
        exact ⟨hne, fun z hz => .inr (List.mem_append_left _ hz)⟩
    refine ⟨seen, fun y hy => hv y (List.mem_append_left _ hy), fun y hy => ?_, hd, hclosed⟩
    rcases List.mem_cons.mp hy with rfl | hy
    · exact hv _ (by simp)
    · exact hs y (List.mem_append_right _ hy)

/-- The answer of a search from one vertex is whether `d` is reached from it. -/
theorem Finds.iff_reaches {b : Bool} (h : Finds next d [] [p] b) :
    b = true ↔ Relation.ReflTransGen (Follows next) p d := by
  constructor
  · intro hb
    obtain ⟨x, hx, hr⟩ := h.reaches hb
    rwa [List.mem_singleton.mp hx] at hr
  · intro hr
    by_contra hb
    obtain ⟨seen, -, hs, hd, hclosed⟩ := h.closed (by simpa using hb) fun _ hx => by cases hx
    have hseen : ∀ x, Relation.ReflTransGen (Follows next) p x → x ∈ seen := by
      intro x hx
      induction hx with
      | refl => exact hs p (by simp)
      | tail _ hstep ih => exact hclosed _ ih _ hstep
    exact hd (hseen d hr)

/-! ### The search ends -/

variable [DecidableEq V]

/-- The vertices of a set that are not visited. -/
def unvisited (U : Finset V) (visited : List V) : Finset V := U.filter fun x => x ∉ visited

theorem mem_unvisited {U : Finset V} {x : V} : x ∈ unvisited U visited ↔ x ∈ U ∧ x ∉ visited :=
  Finset.mem_filter

theorem unvisited_snoc_subset (U : Finset V) (visited : List V) (x : V) :
    unvisited U (visited ++ [x]) ⊆ unvisited U visited := by
  intro y hy
  rw [mem_unvisited] at hy ⊢
  exact ⟨hy.1, fun hv => hy.2 (List.mem_append_left _ hv)⟩

theorem card_unvisited_lt {U : Finset V} {x : V} (hx : x ∈ U) (hnew : x ∉ visited) :
    (unvisited U (visited ++ [x])).card < (unvisited U visited).card := by
  apply Finset.card_lt_card
  refine Finset.ssubset_iff_subset_ne.mpr ⟨unvisited_snoc_subset U visited x, fun heq => ?_⟩
  have hin : x ∈ unvisited U (visited ++ [x]) := heq ▸ mem_unvisited.mpr ⟨hx, hnew⟩
  exact (mem_unvisited.mp hin).2 (by simp)

/-- A search ends when all vertices with successors are in a finite set: a visit of one of
them leaves fewer that are not visited, and any other step shortens the stack. -/
theorem exists_finds_of_subset {U : Finset V} (hU : ∀ x, next x ≠ [] → x ∈ U) (visited stack : List V) :
    ∃ b, Finds next d visited stack b := by
  induction hn : (unvisited U visited).card using Nat.strong_induction_on generalizing visited stack with
  | _ n ih =>
    -- with as many not visited, the induction is on the stack
    induction stack generalizing visited with
    | nil => exact ⟨false, .empty⟩
    | cons x stack ihs =>
      by_cases hd : x = d
      · subst hd
        exact ⟨true, .found⟩
      by_cases hv : x ∈ visited
      · obtain ⟨b, hb⟩ := ihs visited hn
        exact ⟨b, .skip hd hv hb⟩
      have hle := Finset.card_le_card (unvisited_snoc_subset U visited x)
      by_cases hlt : (unvisited U (visited ++ [x])).card < n
      · obtain ⟨b, hb⟩ := ih _ hlt (visited ++ [x]) (next x ++ stack) rfl
        exact ⟨b, .visit hd hv hb⟩
      · have hleaf : next x = [] := by
          by_contra hx
          have := card_unvisited_lt (hU x hx) hv
          omega
        obtain ⟨b, hb⟩ := ihs (visited ++ [x]) (by omega)
        refine ⟨b, .visit hd hv ?_⟩
        rw [hleaf]
        exact hb

/-- With finitely many vertices that have successors every search ends. -/
theorem exists_finds (hfin : {x | next x ≠ []}.Finite) (visited stack : List V) :
    ∃ b, Finds next d visited stack b :=
  exists_finds_of_subset (U := hfin.toFinset) (fun _ hx => hfin.mem_toFinset.mpr hx) visited stack

/-! ### Cycles -/

omit [DecidableEq V]

/-- No vertex is reached from itself in one step or more. -/
def Acyclic (r : V → V → Prop) : Prop := ∀ a, ¬Relation.TransGen r a a

/-- The relation with one more edge. -/
def Insert (r : V → V → Prop) (x y a b : V) : Prop := r a b ∨ a = x ∧ b = y

variable {r : V → V → Prop} {x y a b : V}

/-- A path with one more edge goes along it or was there before. -/
theorem transGen_insert (h : Relation.TransGen (Insert r x y) a b) (hno : ¬Relation.ReflTransGen r y x) :
    Relation.TransGen r a b ∨ Relation.ReflTransGen r a x ∧ Relation.ReflTransGen r y b := by
  induction h with
  | single hstep =>
    rcases hstep with hstep | ⟨rfl, rfl⟩
    · exact .inl (.single hstep)
    · exact .inr ⟨.refl, .refl⟩
  | tail _ hstep ih =>
    rcases hstep with hstep | ⟨rfl, rfl⟩
    · rcases ih with hpath | ⟨hax, hyb⟩
      · exact .inl (hpath.tail hstep)
      · exact .inr ⟨hax, hyb.tail hstep⟩
    · rcases ih with hpath | ⟨-, hyx⟩
      · exact .inr ⟨hpath.to_reflTransGen, .refl⟩
      · exact absurd hyx hno

/-- An edge that no path leads back across closes no cycle. -/
theorem Acyclic.insert (h : Acyclic r) (hno : ¬Relation.ReflTransGen r y x) : Acyclic (Insert r x y) := by
  intro a hcycle
  rcases transGen_insert hcycle hno with hpath | ⟨hax, hya⟩
  · exact h a hpath
  · exact hno (hya.trans hax)

end Navin
