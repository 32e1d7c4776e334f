/-
# Milestones one by one and in a batch

`record_milestones_batch` takes a list of checkpoints and does for each what
`record_milestone` does for one, but not quite: it does not check the names, it passes
over a milestone that is paid where the single call fails, and it pays the last milestone
its share of the deposit where the single call pays all that is left.

Key definitions:
- `recordEach`: the single recordings, each a call of its own;
- `Shipment.Concurs`: the lists on which the two agree.

Key theorems:
- `Shipment.Concurs.recorded`, `Shipment.Concurs.of_recorded`: one item;
- `batch_recording_agrees`.
-/
import Navin.Recording
import Navin.Token
import Mathlib.Algebra.Order.BigOperators.Group.List
import Mathlib.Algebra.Order.Ring.Nat

namespace Navin

open Tx

variable {H : Host}

/-! ### Schedules -/

section

variable {κ ν M : Type} [DecidableEq κ] [AddCommMonoid M] {L : List (κ × ν)} {names names' : List κ}

theorem filter_named_congr (h : ∀ m ∈ L, m.1 ∈ names ↔ m.1 ∈ names') :
    (L.filter fun m => m.1 ∈ names) = L.filter fun m => m.1 ∈ names' :=
  List.filter_congr fun m hm => by simp [h m hm]

/-- A sum over the named entries, with one more name. -/
theorem sum_named_cons (hn : (L.map (·.1)).Nodup) {m : κ × ν} (hm : m ∈ L) (hnew : m.1 ∉ names)
    (f : κ × ν → M) : ((L.filter fun a => a.1 ∈ m.1 :: names).map f).sum =
      f m + ((L.filter fun a => a.1 ∈ names).map f).sum := by
  induction L with
  | nil => cases hm
  | cons a L ih =>
    rw [List.map_cons, List.nodup_cons] at hn
    rcases List.mem_cons.mp hm with rfl | hm
    · -- the rest of the list has other names
      have hrest : (L.filter fun a => a.1 ∈ m.1 :: names) = L.filter fun a => a.1 ∈ names := by
        refine filter_named_congr fun a ha => ?_
        have hne : a.1 ≠ m.1 := fun he => hn.1 (he ▸ List.mem_map_of_mem ha)
        simp [hne]
      rw [List.filter_cons_of_pos (by simp), List.filter_cons_of_neg (by simpa using hnew), hrest,
        List.map_cons, List.sum_cons]
    · have hne : a.1 ≠ m.1 := fun he => hn.1 (he ▸ List.mem_map_of_mem hm)
      by_cases ha : a.1 ∈ names
      · rw [List.filter_cons_of_pos (by simp [ha]), List.filter_cons_of_pos (by simp [ha]),
          List.map_cons, List.sum_cons, ih hn.2 hm, List.map_cons, List.sum_cons]
        exact add_left_comm _ _ _
      · rw [List.filter_cons_of_neg (by simp [ha, hne]), List.filter_cons_of_neg (by simp [ha]),
          ih hn.2 hm]

end

namespace Scheduled

variable {L : List (Symbol × ℕ)} {names : List Symbol}

theorem nodup_names (h : Scheduled L) : (L.map (·.1)).Nodup := by
  rcases h with rfl | ⟨-, hn, -⟩
  · exact List.nodup_nil
  · refine List.Nodup.of_map Symbol.toXdr ?_
    rw [List.map_map]
    exact hn

theorem share_pos (h : Scheduled L) {m : Symbol × ℕ} (hm : m ∈ L) : 0 < m.2 := by
  rcases h with rfl | ⟨he, -, -⟩
  · cases hm
  · exact (he m hm).2.1

theorem sum_le (h : Scheduled L) : (L.map (·.2)).sum ≤ 100 := by
  rcases h with rfl | ⟨-, -, hs⟩
  · simp
  · exact hs.le

theorem scheduledShare_le (h : Scheduled L) : scheduledShare L names ≤ 100 := by
  have hsub : (L.filter fun m => m.1 ∈ names).Sublist L := List.filter_sublist
  exact ((hsub.map _).sum_le_sum fun _ _ => Nat.zero_le _).trans h.sum_le

theorem scheduledShare_snoc (h : Scheduled L) {m : Symbol × ℕ} (hm : m ∈ L) (hnew : m.1 ∉ names) :
    scheduledShare L (names ++ [m.1]) = scheduledShare L names + m.2 := by
  have hcons := sum_named_cons h.nodup_names hm hnew (·.2)
  have hswap : (L.filter fun a => a.1 ∈ names ++ [m.1]) = L.filter fun a => a.1 ∈ m.1 :: names :=
    filter_named_congr fun a _ => by simp [or_comm]
  unfold scheduledShare
  rw [hswap, hcons, Nat.add_comm]

/-- All shares are accounted for only when every milestone is named. -/
theorem named_of_share (h : Scheduled L) (hall : scheduledShare L names = 100) {m : Symbol × ℕ}
    (hm : m ∈ L) : m.1 ∈ names := by
  by_contra hnew
  have hsnoc := h.scheduledShare_snoc hm hnew
  have hle : scheduledShare L (names ++ [m.1]) ≤ 100 := h.scheduledShare_le
  have hpos := h.share_pos hm
  omega

theorem scheduledShare_mono (h : Scheduled L) {names' : List Symbol}
    (hall : scheduledShare L names = 100) : scheduledShare L (names ++ names') = 100 := by
  have hsame : (L.filter fun a => a.1 ∈ names ++ names') = L.filter fun a => a.1 ∈ names :=
    filter_named_congr fun a ha => by simp [h.named_of_share hall ha]
  unfold scheduledShare at hall ⊢
  rw [hsame, hall]

end Scheduled

/-! ### The lists on which the two agree -/

namespace Shipment

/-- The scheduled milestones among some names. -/
def due (s : Shipment) (names : List Symbol) : List (Symbol × ℕ) :=
  s.paymentMilestones.filter fun m => m.1 ∈ names

/-- Their shares of the deposit. -/
def dueShares (s : Shipment) (names : List Symbol) : ℤ := ((s.due names).map fun m => s.share m.2).sum

/-- The names complete the schedule. -/
def Completes (s : Shipment) (names : List Symbol) : Prop :=
  scheduledShare s.paymentMilestones s.paidMilestones ≠ 100 ∧
    scheduledShare s.paymentMilestones (s.paidMilestones ++ names) = 100

/-- The names are short, the scheduled ones among them unpaid and there once; and if they
complete the schedule, their shares can be computed and cover what is left in escrow. -/
structure Concurs (s : Shipment) (names : List Symbol) : Prop where
  short : ∀ name ∈ names, name.Short
  unpaid : ∀ name ∈ names, name ∈ s.paymentMilestones.map (·.1) → name ∉ s.paidMilestones
  once : (names.filter fun name => name ∈ s.paymentMilestones.map (·.1)).Nodup
  covered : s.Completes names →
    (∀ m ∈ s.due names, s.totalEscrow * m.2 ≤ i128Max) ∧ s.escrowAmount ≤ s.dueShares names

instance (s : Shipment) (names : List Symbol) : Decidable (s.Completes names) :=
  inferInstanceAs (Decidable (_ ∧ _))

instance (s : Shipment) (names : List Symbol) : Decidable (s.Concurs names) :=
  decidable_of_iff ((∀ name ∈ names, name.Short) ∧
    (∀ name ∈ names, name ∈ s.paymentMilestones.map (·.1) → name ∉ s.paidMilestones) ∧
    (names.filter fun name => name ∈ s.paymentMilestones.map (·.1)).Nodup ∧
    (s.Completes names → (∀ m ∈ s.due names, s.totalEscrow * m.2 ≤ i128Max) ∧
      s.escrowAmount ≤ s.dueShares names))
    ⟨fun ⟨h₁, h₂, h₃, h₄⟩ => ⟨h₁, h₂, h₃, h₄⟩, fun h => ⟨h.short, h.unpaid, h.once, h.covered⟩⟩

/-- What holds of every stored record. -/
structure Regular (s : Shipment) : Prop where
  scheduled : Scheduled s.paymentMilestones
  escrow_nonneg : 0 ≤ s.escrowAmount
  escrow_le_total : s.escrowAmount ≤ s.totalEscrow

end Shipment

section

variable {s : Shipment} {name : Symbol} {names : List Symbol} {m : Symbol × ℕ} {now : ℕ}

theorem Shipment.findMilestone_eq_none :
    s.findMilestone name = none ↔ name ∉ s.paymentMilestones.map (·.1) := by
  unfold Shipment.findMilestone
  rw [List.find?_eq_none, List.mem_map]
  constructor
  · rintro h ⟨a, ha, rfl⟩
    exact h a ha (by simp)
  · rintro h a ha he
    exact h ⟨a, ha, of_decide_eq_true he⟩

theorem Shipment.mem_of_findMilestone (h : s.findMilestone name = some m) :
    m ∈ s.paymentMilestones ∧ m.1 = name := by
  unfold Shipment.findMilestone at h
  exact ⟨List.mem_of_find?_eq_some h, by simpa using List.find?_some h⟩

theorem Shipment.Regular.share_nonneg (h : s.Regular) (n : ℕ) : 0 ≤ s.share n :=
  Int.tdiv_nonneg (Int.mul_nonneg (h.escrow_nonneg.trans h.escrow_le_total) (Int.natCast_nonneg n))
    (by decide)

theorem Shipment.Regular.dueShares_nonneg (h : s.Regular) : 0 ≤ s.dueShares names := by
  refine List.sum_nonneg fun x hx => ?_
  obtain ⟨m, -, rfl⟩ := List.mem_map.mp hx
  exact h.share_nonneg m.2

/-- A record keeps its schedule and its deposit. -/
theorem Shipment.Regular.recorded (h : s.Regular) : (s.recorded name now).Regular := by
  unfold Shipment.recorded
  cases s.findMilestone name with
  | none => exact h
  | some m =>
    have hle := (s.markPaid name).payable_le (s.milestoneDue (s.paidMilestones ++ [name]) m.2)
      h.escrow_nonneg
    have hnn := (s.markPaid name).payable_nonneg (s.milestoneDue (s.paidMilestones ++ [name]) m.2)
    exact ⟨h.scheduled, sub_nonneg.mpr hle, (sub_le_self _ hnn).trans h.escrow_le_total⟩

/-! #### A name that is not scheduled -/

theorem Shipment.concurs_cons_none (hm : s.findMilestone name = none) :
    s.Concurs (name :: names) ↔ name.Short ∧ s.Concurs names := by
  have hn := Shipment.findMilestone_eq_none.mp hm
  have hother : ∀ a ∈ s.paymentMilestones, a.1 ≠ name :=
    fun a ha he => hn (he ▸ List.mem_map_of_mem ha)
  have hfilter : ((name :: names).filter fun n => n ∈ s.paymentMilestones.map (·.1)) =
      names.filter fun n => n ∈ s.paymentMilestones.map (·.1) :=
    List.filter_cons_of_neg (by simpa using hn)
  have hdue : s.due (name :: names) = s.due names :=
    filter_named_congr fun a ha => by simp [hother a ha]
  have hshare : scheduledShare s.paymentMilestones (s.paidMilestones ++ name :: names) =
      scheduledShare s.paymentMilestones (s.paidMilestones ++ names) := by
    have hsame : (s.paymentMilestones.filter fun a => a.1 ∈ s.paidMilestones ++ name :: names) =
        s.paymentMilestones.filter fun a => a.1 ∈ s.paidMilestones ++ names :=
      filter_named_congr fun a ha => by simp [hother a ha]
    unfold scheduledShare
    rw [hsame]
  have hcompletes : s.Completes (name :: names) ↔ s.Completes names := by
    unfold Shipment.Completes
    rw [hshare]
  have hshares : s.dueShares (name :: names) = s.dueShares names := by
    unfold Shipment.dueShares
    rw [hdue]
  constructor
  · intro h
    refine ⟨h.short _ List.mem_cons_self, fun n hn => h.short n (List.mem_cons_of_mem _ hn),
      fun n hn => h.unpaid n (List.mem_cons_of_mem _ hn), hfilter ▸ h.once, fun hc => ?_⟩
    rw [← hdue, ← hshares]
    exact h.covered (hcompletes.mpr hc)
  · rintro ⟨hshort, h⟩
    refine ⟨List.forall_mem_cons.mpr ⟨hshort, h.short⟩,
      List.forall_mem_cons.mpr ⟨fun hin => absurd hin hn, h.unpaid⟩, hfilter ▸ h.once, fun hc => ?_⟩
    rw [hdue, hshares]
    exact h.covered (hcompletes.mp hc)

/-! #### A scheduled name -/

namespace Shipment

theorem recorded_paymentMilestones : (s.recorded name now).paymentMilestones = s.paymentMilestones := by
  unfold recorded
  split <;> rfl

theorem recorded_totalEscrow : (s.recorded name now).totalEscrow = s.totalEscrow := by
  unfold recorded
  split <;> rfl

theorem recorded_due : (s.recorded name now).due names = s.due names := by
  unfold due
  rw [recorded_paymentMilestones]

theorem recorded_dueShares : (s.recorded name now).dueShares names = s.dueShares names := by
  unfold dueShares share
  rw [recorded_due, recorded_totalEscrow]

theorem recorded_paidMilestones (hm : s.findMilestone name = some m) (hunpaid : name ∉ s.paidMilestones) :
    (s.recorded name now).paidMilestones = s.paidMilestones ++ [name] := by
  rw [recorded_some hm]
  exact if_neg hunpaid

/-- Before the last milestone its share is paid, as far as the escrow goes. -/
theorem Regular.recorded_escrow (h : s.Regular) (hm : s.findMilestone name = some m)
    (hlast : scheduledShare s.paymentMilestones (s.paidMilestones ++ [name]) ≠ 100) :
    (s.recorded name now).escrowAmount = max 0 (s.escrowAmount - s.share m.2) := by
  have hdue : s.milestoneDue (s.paidMilestones ++ [name]) m.2 = s.share m.2 := if_neg hlast
  have hshare := h.share_nonneg m.2
  have hescrow := h.escrow_nonneg
  rw [recorded_some hm, hdue]
  change s.escrowAmount - max 0 (min (s.share m.2) s.escrowAmount) = _
  omega

theorem dueShares_cons (h : s.Regular) (hm : s.findMilestone name = some m) (hn : name ∉ names) :
    s.dueShares (name :: names) = s.share m.2 + s.dueShares names := by
  obtain ⟨hin, rfl⟩ := mem_of_findMilestone hm
  exact sum_named_cons h.scheduled.nodup_names hin hn fun m => s.share m.2

namespace Concurs

theorem not_mem (h : s.Concurs (name :: names)) (hm : s.findMilestone name = some m) :
    name ∉ names := by
  obtain ⟨hin, hname⟩ := mem_of_findMilestone hm
  have hsched : name ∈ s.paymentMilestones.map (·.1) := hname ▸ List.mem_map_of_mem hin
  have honce := h.once
  rw [List.filter_cons_of_pos (by simpa using hsched), List.nodup_cons] at honce
  exact fun hn => honce.1 (List.mem_filter.mpr ⟨hn, by simpa using hsched⟩)

/-- Nothing is due beside a name that completes the schedule. -/
theorem due_eq_nil (h : s.Concurs (name :: names)) (hr : s.Regular) (hm : s.findMilestone name = some m)
    (hlast : scheduledShare s.paymentMilestones (s.paidMilestones ++ [name]) = 100) :
    s.due names = [] := by
  refine List.filter_eq_nil_iff.mpr fun a ha hn => ?_
  have hn : a.1 ∈ names := of_decide_eq_true hn
  have hunpaid := h.unpaid a.1 (List.mem_cons_of_mem _ hn) (List.mem_map_of_mem ha)
  rcases List.mem_append.mp (hr.scheduled.named_of_share hlast ha) with hpaid | hpaid
  · exact hunpaid hpaid
  · rw [List.mem_singleton.mp hpaid] at hn
    exact h.not_mem hm hn

/-- The first name is paid alike. -/
theorem paysAlike (h : s.Concurs (name :: names)) (hr : s.Regular)
    (hm : s.findMilestone name = some m) : s.PaysAlike name m := by
  obtain ⟨hin, hname⟩ := mem_of_findMilestone hm
  have hunpaid : name ∉ s.paidMilestones :=
    h.unpaid name List.mem_cons_self (hname ▸ List.mem_map_of_mem hin)
  refine ⟨hunpaid, hr.scheduled.scheduledShare_le, fun hlast => ?_⟩
  have hsnoc := hr.scheduled.scheduledShare_snoc hin (hname ▸ hunpaid)
  have hpos := hr.scheduled.share_pos hin
  rw [hname, hlast] at hsnoc
  have hcompletes : s.Completes (name :: names) := by
    refine ⟨by omega, ?_⟩
    have hall : scheduledShare s.paymentMilestones (s.paidMilestones ++ [name] ++ names) = 100 :=
      hr.scheduled.scheduledShare_mono hlast
    rwa [List.append_assoc] at hall
  obtain ⟨hfits, hcovers⟩ := h.covered hcompletes
  refine ⟨hfits m (List.mem_filter.mpr ⟨hin, by simp [hname]⟩), ?_⟩
  have hrest : s.dueShares names = 0 := by
    unfold dueShares
    rw [h.due_eq_nil hr hm hlast]
    rfl
  rw [dueShares_cons hr hm (h.not_mem hm), hrest, add_zero] at hcovers
  exact hcovers

/-- After the first name is recorded, the others still concur. -/
theorem recorded (h : s.Concurs (name :: names)) (hr : s.Regular) :
    (s.recorded name now).Concurs names := by
  cases hm : s.findMilestone name with
  | none =>
    rw [recorded_none hm]
    exact ((concurs_cons_none hm).mp h).2
  | some m =>
    obtain ⟨hin, hname⟩ := mem_of_findMilestone hm
    have hp := h.paysAlike hr hm
    have hnew := h.not_mem hm
    have hpaid : (s.recorded name now).paidMilestones = s.paidMilestones ++ [name] :=
      recorded_paidMilestones hm hp.unpaid
    refine ⟨fun n hn => h.short n (List.mem_cons_of_mem _ hn), ?_, ?_, ?_⟩
    · intro n hn hsched
      rw [recorded_paymentMilestones] at hsched
      rw [hpaid, List.mem_append, List.mem_singleton, not_or]
      exact ⟨h.unpaid n (List.mem_cons_of_mem _ hn) hsched, fun he => hnew (he ▸ hn)⟩
    · have hsched : name ∈ s.paymentMilestones.map (·.1) := hname ▸ List.mem_map_of_mem hin
      have honce := h.once
      rw [List.filter_cons_of_pos (by simpa using hsched), List.nodup_cons] at honce
      rw [recorded_paymentMilestones]
      exact honce.2
    · rintro ⟨hopen, hall⟩
      rw [recorded_paymentMilestones, hpaid] at hopen hall
      rw [List.append_assoc] at hall
      have hsnoc := hr.scheduled.scheduledShare_snoc hin (hname ▸ hp.unpaid)
      have hle := hp.share_le
      rw [hname] at hsnoc
      obtain ⟨hfits, hcovers⟩ := h.covered ⟨by omega, hall⟩
      rw [recorded_due, recorded_dueShares, recorded_totalEscrow, hr.recorded_escrow hm hopen]
      rw [dueShares_cons hr hm hnew] at hcovers
      have hnonneg : 0 ≤ s.dueShares names := hr.dueShares_nonneg
      refine ⟨fun a ha => hfits a ?_, by omega⟩
      obtain ⟨ha, hn⟩ := List.mem_filter.mp ha
      exact List.mem_filter.mpr ⟨ha, by simp [of_decide_eq_true hn]⟩

/-- A name that is paid alike, before names that concur. -/
theorem of_recorded (hr : s.Regular) (hshort : name.Short)
    (hm : ∀ m, s.findMilestone name = some m → s.PaysAlike name m ∧ s.totalEscrow * m.2 ≤ i128Max)
    (h : (s.recorded name now).Concurs names) : s.Concurs (name :: names) := by
  cases hf : s.findMilestone name with
  | none =>
    rw [recorded_none hf] at h
    exact (concurs_cons_none hf).mpr ⟨hshort, h⟩
  | some m =>
    obtain ⟨hin, hname⟩ := mem_of_findMilestone hf
    obtain ⟨hp, hfit⟩ := hm m hf
    have hpaid : (s.recorded name now).paidMilestones = s.paidMilestones ++ [name] :=
      recorded_paidMilestones hf hp.unpaid
    have hsched : name ∈ s.paymentMilestones.map (·.1) := hname ▸ List.mem_map_of_mem hin
    have hunpaid : ∀ n ∈ names, n ∈ s.paymentMilestones.map (·.1) →
        n ∉ s.paidMilestones ∧ n ≠ name := by
      intro n hn hs
      have hnot := h.unpaid n hn (by rw [recorded_paymentMilestones]; exact hs)
      rw [hpaid, List.mem_append, List.mem_singleton, not_or] at hnot
      exact hnot
    have hnew : name ∉ names := fun hn => (hunpaid name hn hsched).2 rfl
    refine ⟨List.forall_mem_cons.mpr ⟨hshort, h.short⟩, List.forall_mem_cons.mpr
      ⟨fun _ => hp.unpaid, fun n hn hs => (hunpaid n hn hs).1⟩, ?_, ?_⟩
    · have honce := h.once
      rw [recorded_paymentMilestones] at honce
      rw [List.filter_cons_of_pos (by simpa using hsched), List.nodup_cons]
      exact ⟨fun hn => hnew (List.mem_filter.mp hn).1, honce⟩
    · rintro ⟨-, hall⟩
      have hfits : (∀ a ∈ s.due names, s.totalEscrow * a.2 ≤ i128Max) →
          ∀ a ∈ s.due (name :: names), s.totalEscrow * a.2 ≤ i128Max := by
        intro hrest a ha
        obtain ⟨ha, hn⟩ := List.mem_filter.mp ha
        rcases List.mem_cons.mp (of_decide_eq_true hn) with he | hn
        · have hsame : a = m := List.inj_on_of_nodup_map hr.scheduled.nodup_names ha hin (he.trans hname.symm)
          rw [hsame]
          exact hfit
        · exact hrest a (List.mem_filter.mpr ⟨ha, decide_eq_true hn⟩)
      rw [dueShares_cons hr hf hnew]
      have hnonneg : 0 ≤ s.dueShares names := hr.dueShares_nonneg
      by_cases hlast : scheduledShare s.paymentMilestones (s.paidMilestones ++ [name]) = 100
      · obtain ⟨-, hcovers⟩ := hp.last hlast
        refine ⟨hfits fun a ha => ?_, by omega⟩
        obtain ⟨ha, hn⟩ := List.mem_filter.mp ha
        have hnot := hunpaid a.1 (of_decide_eq_true hn) (List.mem_map_of_mem ha)
        rcases List.mem_append.mp (hr.scheduled.named_of_share hlast ha) with hpd | hpd
        · exact absurd hpd hnot.1
        · exact absurd (List.mem_singleton.mp hpd) hnot.2
      · have hcompletes : (s.recorded name now).Completes names := by
          unfold Completes
          rw [recorded_paymentMilestones, hpaid, List.append_assoc]
          exact ⟨hlast, hall⟩
        obtain ⟨hrest, hcovers⟩ := h.covered hcompletes
        rw [recorded_due, recorded_totalEscrow] at hrest
        rw [recorded_dueShares, hr.recorded_escrow hf hlast] at hcovers
        exact ⟨hfits hrest, by omega⟩

end Concurs

end Shipment

end

/-! ### The single recordings -/

variable {env : Env} {carrier : Address} {id : ℕ} {w w₁ w' v v₁ v' : World H} {s s' : Shipment}
  {item : Symbol × BytesN32} {items : List (Symbol × BytesN32)} {pre : List Effect}
  {r : List Effect × World H}

/-- `record_milestone` is called on the items one after the other: the traces of the
calls and the world after them, or `none` when one of the calls fails. -/
def recordEach (carrier : Address) (id : ℕ) (env : Env) (w : World H) :
    List (Symbol × BytesN32) → Option (List Effect × World H)
  | [] => some ([], w)
  | item :: items =>
    match recordMilestone carrier id item.1 item.2 env w.fresh with
    | .ok _ w₁ => (recordEach carrier id env w₁.fresh items).map fun r => (w₁.trace ++ r.1, r.2)
    | _ => none

theorem recordEach_cons : recordEach carrier id env w (item :: items) = some r ↔
    ∃ w₁ q, (recordMilestone carrier id item.1 item.2).Returns env w.fresh () w₁ ∧
      recordEach carrier id env w₁.fresh items = some q ∧ r = (w₁.trace ++ q.1, q.2) := by
  rw [recordEach]
  unfold Returns
  cases recordMilestone carrier id item.1 item.2 env w.fresh with
  | ok u w₁ =>
    simp only [Option.map_eq_some_iff, Outcome.ok.injEq, true_and]
    constructor
    · rintro ⟨q, hq, rfl⟩
      exact ⟨w₁, q, rfl, hq, rfl⟩
    · rintro ⟨_, q, rfl, hq, rfl⟩
      exact ⟨q, hq, rfl⟩
  | err e w₁ => simp
  | trap => simp

/-- Single recordings on `w`, and a batch on `v` that made the transfers `pre`, have come
to the record `s`. -/
structure Paired (env : Env) (carrier : Address) (id : ℕ) (pre : List Effect) (s : Shipment)
    (v w : World H) : Prop where
  worlds : World.Matches id pre v (w.fresh.signed carrier)
  carries : w.Carries env carrier
  stored : w.ledger.shipment id = some s
  keyed : s.id = id
  recordable : s.Recordable carrier
  regular : s.Regular

theorem World.getShipment_of_live (h : w.ledger.shipment id = some s) : w.getShipment id = some s := by
  unfold World.getShipment
  rw [h]

theorem Ledger.sans_setShipment {Token : Type} {l : Ledger Token} (hid : s.id = id) :
    (l.setShipment s).sans id = l.sans id := by
  unfold Ledger.sans Ledger.setShipment
  rw [hid, Function.update_idem]

theorem World.shipment_store (hid : s.id = id) : (w.store s).ledger.shipment id = some s := by
  change Function.update w.ledger.shipment s.id (some s) id = some s
  rw [hid, Function.update_self]

namespace Paired

theorem getShipment (h : Paired env carrier id pre s v w) : w.fresh.getShipment id = some s :=
  World.getShipment_of_live (w := w.fresh) h.stored

theorem alike (h : Paired env carrier id pre s v w)
    (hm : ∀ m, s.findMilestone item.1 = some m → s.PaysAlike item.1 m) :
    Alike (World.Matches id pre) (recordBatchItem carrier id s item : Contract H Shipment)
      (recordItem carrier id s item) :=
  alike_recordItem h.regular.escrow_nonneg h.regular.escrow_le_total hm

theorem recorded (h : Paired env carrier id pre s v w) (name : Symbol) (now : ℕ) :
    (s.recorded name now).id = id ∧ (s.recorded name now).Recordable carrier := by
  obtain ⟨hopen, hcarrier, hstatus⟩ := h.recordable
  unfold Shipment.recorded
  split <;> exact ⟨h.keyed, hopen, hcarrier, hstatus⟩

/-- The record a single recording leaves. -/
theorem stored_next (h : Paired env carrier id pre s v w)
    (hx : (recordItem carrier id s item).Returns env (w.fresh.signed carrier) s' w₁) :
    (w₁.store s'.finalizeIfSettled).ledger.shipment id = some s' := by
  obtain ⟨rfl, -⟩ := wp_recordItem.of_returns hx
  obtain ⟨hid, hrec⟩ := h.recorded item.1 env.timestamp
  rw [Shipment.finalizeIfSettled_of_inTransit hrec.underWay]
  exact World.shipment_store hid

/-- The record is stored after an item. -/
theorem next (h : Paired env carrier id pre s v w)
    (hx : (recordItem carrier id s item).Returns env (w.fresh.signed carrier) s' w₁)
    (hm : World.Matches id pre v₁ w₁) :
    Paired env carrier id (pre ++ transfersIn w₁.trace) s' v₁ (w₁.store s'.finalizeIfSettled).fresh := by
  have hstored := h.stored_next hx
  obtain ⟨rfl, -⟩ := wp_recordItem.of_returns hx
  obtain ⟨hid, hrec⟩ := h.recorded item.1 env.timestamp
  have hstanding : w₁.standing = w.standing :=
    (Preserves.out (f := World.standing) env (w.fresh.signed carrier)).of_returns hx
  refine ⟨⟨?_, hm.registry_eq, hm.dossier_eq, hm.governance_eq, ?_⟩, h.carries.congr hstanding, hstored,
    hid, hrec, h.regular.recorded⟩
  · rw [hm.ledger_eq]
    change _ = (w₁.ledger.setShipment (s.recorded item.1 env.timestamp).finalizeIfSettled).sans id
    rw [Ledger.sans_setShipment]
    exact hid
  · rw [hm.transfers_eq]
    exact (List.append_nil _).symm

/-- One more milestone is counted, under the same limit. -/
theorem next_count (h : w.getMilestoneEventCount id < w.getConfig.maxMilestonesPerShipment)
    (hmax : w.getConfig.maxMilestonesPerShipment ≤ u32Max)
    (hx : (recordItem carrier id s item).Returns env (w.fresh.signed carrier) s' w₁) (t : Shipment) :
    (w₁.store t).fresh.getMilestoneEventCount id = w.getMilestoneEventCount id + 1 ∧
      (w₁.store t).fresh.getConfig = w.getConfig := by
  constructor
  · have htally := wp_recordItem_tally.of_returns hx
    have hfits : w.getMilestoneEventCount id + 1 ≤ u32Max := by omega
    exact htally.trans (min_eq_left hfits)
  · have hstanding : w₁.standing = w.standing :=
      (Preserves.out (f := World.standing) env (w.fresh.signed carrier)).of_returns hx
    have hstored : (w₁.store t).fresh.standing = w.standing := hstanding
    exact World.getConfig_congr hstored

/-- What a single recording of the next item takes. -/
theorem returns_single (h : Paired env carrier id pre s v w) :
    (recordMilestone carrier id item.1 item.2).Returns env w.fresh () w' ↔
      item.1.Short ∧ item.2 ≠ 0 ∧
      w.getMilestoneEventCount id < w.getConfig.maxMilestonesPerShipment ∧
      ∃ s' w₁, (recordItem carrier id s item).Returns env (w.fresh.signed carrier) s' w₁ ∧
        w' = w₁.store s'.finalizeIfSettled := by
  rw [returns_recordMilestone]
  constructor
  · rintro ⟨-, t, ht, -, hrest⟩
    obtain rfl := Option.some.inj (h.getShipment.symm.trans ht)
    exact hrest
  · intro hrest
    exact ⟨⟨h.carries.initialized, h.carries.running, h.carries.signed, h.carries.carrier⟩, s,
      h.getShipment, h.recordable, hrest⟩

/-- What a batch does, the single recordings do. -/
theorem singles (h : Paired env carrier id pre s v w) (hc : s.Concurs (items.map (·.1)))
    (hhash : ∀ item ∈ items, item.2 ≠ 0)
    (hroom : w.getMilestoneEventCount id + items.length ≤ w.getConfig.maxMilestonesPerShipment)
    (hmax : w.getConfig.maxMilestonesPerShipment ≤ u32Max)
    (hx : (items.foldlM (recordBatchItem carrier id) s).Returns env v s' v') :
    ∃ r, recordEach carrier id env w items = some r ∧
      Paired env carrier id (pre ++ transfersIn r.1) s' v' r.2 := by
  induction items generalizing pre s v w with
  | nil =>
    obtain ⟨rfl, rfl⟩ := returns_pure.mp hx
    refine ⟨_, rfl, ?_⟩
    change Paired env carrier id (pre ++ []) s' v' w
    rw [List.append_nil]
    exact h
  | cons item items ih =>
    rw [List.forall_mem_cons] at hhash
    rw [List.length_cons] at hroom
    rw [List.foldlM_cons, returns_bind] at hx
    obtain ⟨s₁, v₁, hitem, hrest⟩ := hx
    obtain ⟨w₁, hsingle, hmatch⟩ :=
      (h.alike fun m hm => hc.paysAlike h.regular hm).returns h.worlds hitem
    have hlt : w.getMilestoneEventCount id < w.getConfig.maxMilestonesPerShipment := by omega
    have hs₁ : s₁ = s.recorded item.1 env.timestamp := (wp_recordItem.of_returns hsingle).1
    obtain ⟨hcount, hconfig⟩ := next_count hlt hmax hsingle s₁.finalizeIfSettled
    obtain ⟨q, hq, hpaired⟩ := ih (h.next hsingle hmatch) (hs₁ ▸ hc.recorded h.regular) hhash.2
      (by rw [hcount, hconfig]; omega) (by rw [hconfig]; exact hmax) hrest
    have hfirst : (recordMilestone carrier id item.1 item.2).Returns env w.fresh ()
        (w₁.store s₁.finalizeIfSettled) :=
      h.returns_single.mpr ⟨hc.short _ List.mem_cons_self, hhash.1, hlt, s₁, w₁, hsingle, rfl⟩
    refine ⟨(w₁.trace ++ q.1, q.2), recordEach_cons.mpr ⟨_, q, hfirst, hq, rfl⟩, ?_⟩
    rw [transfersIn_append, ← List.append_assoc]
    exact hpaired

/-- What the single recordings do, a batch does. -/
theorem batch (h : Paired env carrier id pre s v w) (hc : s.Concurs (items.map (·.1)))
    (hmax : w.getConfig.maxMilestonesPerShipment ≤ u32Max)
    (hx : recordEach carrier id env w items = some r) :
    (∀ item ∈ items, item.2 ≠ 0) ∧
      (items = [] ∨ w.getMilestoneEventCount id + items.length ≤
        w.getConfig.maxMilestonesPerShipment) ∧
      ∃ s' v', (items.foldlM (recordBatchItem carrier id) s).Returns env v s' v' := by
  induction items generalizing pre s v w r with
  | nil => exact ⟨by simp, .inl rfl, s, v, returns_pure.mpr ⟨rfl, rfl⟩⟩
  | cons item items ih =>
    obtain ⟨w', q, hx, hq, -⟩ := recordEach_cons.mp hx
    obtain ⟨-, hhash, hlt, s₁, w₁, hsingle, rfl⟩ := h.returns_single.mp hx
    obtain ⟨v₁, hitem, hmatch⟩ :=
      (h.alike fun m hm => hc.paysAlike h.regular hm).returns_of h.worlds hsingle
    have hs₁ : s₁ = s.recorded item.1 env.timestamp := (wp_recordItem.of_returns hsingle).1
    obtain ⟨hcount, hconfig⟩ := next_count hlt hmax hsingle s₁.finalizeIfSettled
    obtain ⟨hhashes, hroom, s', v', hrest⟩ := ih (h.next hsingle hmatch)
      (hs₁ ▸ hc.recorded h.regular) (by rw [hconfig]; exact hmax) hq
    rw [hcount, hconfig] at hroom
    refine ⟨List.forall_mem_cons.mpr ⟨hhash, hhashes⟩, .inr ?_, s', v', ?_⟩
    · rcases hroom with rfl | hroom
      · exact hlt
      · rw [List.length_cons]
        omega
    · rw [List.foldlM_cons, returns_bind]
      exact ⟨s₁, v₁, hitem, hrest⟩

end Paired

/-! ### Where they part -/

/-- Every milestone of the schedule is paid. -/
def Shipment.PaidUp (s : Shipment) : Prop := ∀ m ∈ s.paymentMilestones, m.1 ∈ s.paidMilestones

namespace Shipment.PaidUp

theorem of_find (h : s.PaidUp) {name : Symbol} {m : Symbol × ℕ} (hm : s.findMilestone name = some m) :
    name ∈ s.paidMilestones := by
  obtain ⟨hin, rfl⟩ := mem_of_findMilestone hm
  exact h m hin

/-- A batch leaves the record. -/
theorem batch (h : s.PaidUp) (hx : (items.foldlM (recordBatchItem carrier id) s).Returns env v s' v') :
    s' = s := by
  induction items generalizing v with
  | nil => exact (returns_pure.mp hx).1
  | cons item items ih =>
    rw [List.foldlM_cons, returns_bind] at hx
    obtain ⟨s₁, v₁, hitem, hrest⟩ := hx
    obtain rfl := (wp_recordBatchItem_idle fun m hm => h.of_find hm).of_returns hitem
    exact ih hrest

/-- Single recordings leave the record. -/
theorem singles (h : s.PaidUp) (hs : w.ledger.shipment id = some s) (hid : s.id = id)
    (hx : recordEach carrier id env w items = some r) : r.2.ledger.shipment id = some s := by
  induction items generalizing w r with
  | nil =>
    obtain rfl := Option.some.inj hx
    exact hs
  | cons item items ih =>
    obtain ⟨w', q, hsingle, hq, rfl⟩ := recordEach_cons.mp hx
    obtain ⟨-, t, ht, hrec, -, -, -, s₁, w₁, hitem, rfl⟩ := returns_recordMilestone.mp hsingle
    have hget : w.fresh.getShipment id = some s := World.getShipment_of_live (w := w.fresh) hs
    obtain rfl := Option.some.inj (hget.symm.trans ht)
    obtain ⟨hs₁, hunpaid⟩ := wp_recordItem.of_returns hitem
    have hnone : s.findMilestone item.1 = none := by
      cases hm : s.findMilestone item.1 with
      | none => rfl
      | some m => exact absurd (h.of_find hm) (hunpaid m hm)
    rw [Shipment.recorded_none hnone] at hs₁
    rw [hs₁, Shipment.finalizeIfSettled_of_inTransit hrec.underWay] at hq
    exact ih (w := (w₁.store s).fresh) (r := q) (World.shipment_store hid) hq

end Shipment.PaidUp

namespace Paired

/-- The last milestone is asked for all that is left by one and for its share by the
other; they end with one record only if the share covers it. -/
theorem escrow_le_share (h : Paired env carrier id pre s v w) {m : Symbol × ℕ}
    (hm : s.findMilestone item.1 = some m) (hunpaid : item.1 ∉ s.paidMilestones)
    (hlast : scheduledShare s.paymentMilestones (s.paidMilestones ++ [item.1]) = 100)
    (hb : (items.foldlM (recordBatchItem carrier id)
      (s.payMilestone item.1 (s.share m.2) env.timestamp)).Returns env v₁ s' v')
    (hs : w'.ledger.shipment id = some (s.recorded item.1 env.timestamp))
    (he : recordEach carrier id env w'.fresh items = some r)
    (hend : r.2.ledger.shipment id = some s'.finalizeIfSettled) : s.escrowAmount ≤ s.share m.2 := by
  have hall : ∀ x, (s.payMilestone item.1 x env.timestamp).PaidUp := by
    intro x m hm
    have hpaid : (s.payMilestone item.1 x env.timestamp).paidMilestones =
        s.paidMilestones ++ [item.1] := if_neg hunpaid
    rw [hpaid]
    exact h.regular.scheduled.named_of_share hlast hm
  have hrecorded : s.recorded item.1 env.timestamp = s.payMilestone item.1 s.escrowAmount
      env.timestamp := by
    rw [Shipment.recorded_some hm, Shipment.milestoneDue, if_pos hlast]
  rw [hrecorded] at hs
  have hsingles := (hall _).singles (w := w'.fresh) hs h.keyed he
  have hsame : (s.payMilestone item.1 (s.share m.2) env.timestamp).finalizeIfSettled =
      s.payMilestone item.1 s.escrowAmount env.timestamp := by
    rw [← (hall _).batch hb]
    exact Option.some.inj (hend.symm.trans hsingles)
  have hescrow : s.escrowAmount - max 0 (min (s.share m.2) s.escrowAmount) =
      s.escrowAmount - max 0 (min s.escrowAmount s.escrowAmount) :=
    congrArg Shipment.escrowAmount hsame
  have hnonneg := h.regular.escrow_nonneg
  have hshare := h.regular.share_nonneg m.2
  omega

/-- Where both go through and end with one record, the list is one on which they agree. -/
theorem concurs (h : Paired env carrier id pre s v w)
    (hb : (items.foldlM (recordBatchItem carrier id) s).Returns env v s' v')
    (he : recordEach carrier id env w items = some r)
    (hend : r.2.ledger.shipment id = some s'.finalizeIfSettled) : s.Concurs (items.map (·.1)) := by
  induction items generalizing pre s v w r with
  | nil =>
    refine ⟨by simp, by simp, by simp, ?_⟩
    rintro ⟨hopen, hall⟩
    rw [List.map_nil, List.append_nil] at hall
    exact absurd hall hopen
  | cons item items ih =>
    rw [List.foldlM_cons, returns_bind] at hb
    obtain ⟨s₂, v₁, hitem, hb⟩ := hb
    obtain ⟨w', q, hx, hq, rfl⟩ := recordEach_cons.mp he
    obtain ⟨hshort, -, -, s₁, w₁, hsingle, rfl⟩ := h.returns_single.mp hx
    obtain ⟨hs₁, hunpaid⟩ := wp_recordItem.of_returns hsingle
    have hstored := (h.stored_next hsingle).trans (congrArg some hs₁)
    have hpays : ∀ m, s.findMilestone item.1 = some m →
        s.PaysAlike item.1 m ∧ s.totalEscrow * m.2 ≤ i128Max := by
      intro m hm
      obtain ⟨hs₂, hfits⟩ := (wp_recordBatchItem_unpaid hm (hunpaid m hm)).of_returns hitem
      refine ⟨⟨hunpaid m hm, h.regular.scheduled.scheduledShare_le, fun hlast => ⟨hfits, ?_⟩⟩, hfits⟩
      rw [hs₂] at hb
      exact h.escrow_le_share hm (hunpaid m hm) hlast hb hstored hq hend
    obtain ⟨w₂, hsingle₂, hmatch⟩ := (h.alike fun m hm => (hpays m hm).1).returns h.worlds hitem
    obtain ⟨rfl, rfl⟩ := hsingle₂.unique hsingle
    have hrest := ih (h.next hsingle hmatch) hb hq hend
    exact .of_recorded h.regular hshort hpays (hs₁ ▸ hrest)

end Paired

/-! ### Reachable states -/

variable {call : Call} {b : Book H.Token} {c c' : Chain H} {l : Label}

theorem Ledger.Enrolled.archivedShipment_eq {Token : Type} {l l' : Ledger Token} {sender : Address}
    {now : ℕ} (he : l.Enrolled sender now l') : l'.archivedShipment = l.archivedShipment := by
  induction he with
  | nil => rfl
  | snoc _ _ _ ih => exact ih

/-- Only a closed shipment goes to the archive. -/
def Ledger.ArchiveClosed {Token : Type} (l : Ledger Token) : Prop :=
  ∀ id s, l.archivedShipment id = some s → s.status = .delivered ∨ s.status = .cancelled

theorem Effects.archiveClosed (he : Effects env w call b) (h : w.ledger.ArchiveClosed) :
    b.ledger.ArchiveClosed := by
  cases he with
  | quiet => exact h
  | initialized => exact h
  | handedOver => exact h
  | enrolled _ _ _ he =>
    intro id s hs
    rw [he.archivedShipment_eq] at hs
    exact h id s hs
  | @archived admin i t _ _ hclosed =>
    intro id s hs
    have hs : Function.update w.ledger.archivedShipment i (some t) id = some s := hs
    rw [Function.update_apply] at hs
    split at hs
    · rw [← Option.some.inj hs]
      exact hclosed
    · exact h id s hs
  | posted _ _ _ hp =>
    obtain ⟨t, token, -, -, rfl⟩ := hp
    exact h

/-- What the recordings rely on beside the book: the schedules, and the archive. -/
structure World.Tidy (w : World H) : Prop where
  scheduled : ∀ id s, w.getShipment id = some s → Scheduled s.paymentMilestones
  archive : w.ledger.ArchiveClosed

theorem Step.tidy (hstep : Step c l c') (hs : c.world.ledger.Sound) (h : c.world.Tidy) :
    c'.world.Tidy := by
  cases hstep with
  | @committed call env w' _ hx =>
    have hk : c.world.fresh.ledger.Keyed := hs.keyed
    have hscheduled : ∀ id s, w'.getShipment id = some s → Scheduled s.paymentMilestones := by
      refine forall_records_exec hk hx (fun _ _ _ hacc => hacc.scheduled) ?_ h.scheduled
      intro p hp hold
      rw [hp.rule.keeps.schedule_eq]
      exact hold
    exact ⟨hscheduled, (exec_effects hk hx).archiveClosed h.archive⟩
  | reverted => exact h
  | outside => exact ⟨h.scheduled, h.archive⟩

theorem Reachable.tidy (hc : Reachable c) : c.world.Tidy :=
  hc.inv (I := fun c => c.world.Tidy)
    (fun _ _ => ⟨fun _ _ h => (by cases h), fun _ _ h => (by cases h)⟩)
    fun _ _ _ ha h hstep => hstep.tidy ha.sound h

/-- A record under way is live. -/
theorem World.Tidy.live (h : w.Tidy) (hs : w.getShipment id = some s)
    (hr : s.Recordable carrier) : w.ledger.shipment id = some s := by
  unfold World.getShipment at hs
  cases hl : w.ledger.shipment id with
  | some t =>
    rw [hl] at hs
    exact hs
  | none =>
    rw [hl] at hs
    have hclosed := h.archive id s hs
    rw [hr.underWay] at hclosed
    rcases hclosed with hclosed | hclosed <;> cases hclosed

/-- Both start from the same world. -/
theorem Reachable.paired (hc : Reachable c) (hcar : c.world.Carries env carrier)
    (hs : c.world.getShipment id = some s) (hr : s.Recordable carrier) :
    Paired env carrier id [] s (c.world.fresh.signed carrier) c.world where
  worlds := ⟨rfl, rfl, rfl, rfl, rfl⟩
  carries := hcar
  stored := hc.tidy.live hs hr
  keyed := hc.sound.keyed.get hs
  recordable := hr
  regular := ⟨hc.tidy.scheduled id s hs, hc.sound.escrow_nonneg id s hs,
    hc.sound.escrow_le_total id s hs⟩

/-- Where a batch stores its record, the single recordings have it stored. -/
theorem Paired.ends (h : Paired env carrier id pre s v w) :
    transfersIn (v.store s.finalizeIfSettled).trace = pre ∧
      (v.store s.finalizeIfSettled).fresh = w.fresh := by
  constructor
  · have ht := h.worlds.transfers_eq
    exact ht.trans (List.append_nil _)
  · rw [Shipment.finalizeIfSettled_of_inTransit h.recordable.underWay]
    have hledger : v.ledger.setShipment s = w.ledger := by
      have hsans : v.ledger.sans id = w.ledger.sans id := h.worlds.ledger_eq
      have hback : ∀ l : Ledger H.Token, l.setShipment s =
          { l.sans id with shipment := Function.update (l.sans id).shipment id (some s) } := by
        intro l
        unfold Ledger.setShipment Ledger.sans
        rw [h.keyed, Function.update_idem]
      have hsame : w.ledger.setShipment s = w.ledger := by
        unfold Ledger.setShipment
        rw [h.keyed, ← h.stored, Function.update_eq_self]
      rw [hback, hsans, ← hback, hsame]
    have hregistry : v.registry = w.registry := h.worlds.registry_eq
    have hdossier : v.dossier = w.dossier := h.worlds.dossier_eq
    have hgovernance : v.governance = w.governance := h.worlds.governance_eq
    unfold World.fresh World.store
    rw [hledger, hregistry, hdossier, hgovernance]

/-! ### Batches and single recordings -/

namespace World

/-- A batch goes through exactly when single recordings of its items do, with the same
transfers, and leaves the same world. -/
def Agrees (w : World H) (env : Env) (carrier : Address) (id : ℕ)
    (items : List (Symbol × BytesN32)) : Prop :=
  ((∃ w', (recordMilestonesBatch carrier id items).Returns env w.fresh () w') ↔
    ∃ r, recordEach carrier id env w items = some r) ∧
  ∀ w' r, (recordMilestonesBatch carrier id items).Returns env w.fresh () w' →
    recordEach carrier id env w items = some r →
    transfersIn w'.trace = transfersIn r.1 ∧ w'.fresh = r.2.fresh

/-- The condition: the names concur with the record, and an empty list is sent by the
carrier of a shipment under way, with no more milestones than the limit. -/
structure Concurs (w : World H) (env : Env) (carrier : Address) (id : ℕ)
    (items : List (Symbol × BytesN32)) : Prop where
  empty : items = [] → w.Carries env carrier ∧ ∃ s, w.getShipment id = some s ∧
    s.Recordable carrier ∧ w.getMilestoneEventCount id ≤ w.getConfig.maxMilestonesPerShipment
  names : ∀ s, w.getShipment id = some s → s.Concurs (items.map (·.1))

end World

theorem Reachable.maxMilestones_le (hc : Reachable c) :
    c.world.getConfig.maxMilestonesPerShipment ≤ u32Max := by
  have hle := ContractConfig.maxMilestones_le hc.validConfig
  exact hle.trans (by decide)

/-- What goes through in a batch. -/
theorem Reachable.of_batch (hc : Reachable c)
    (hx : (recordMilestonesBatch carrier id items).Returns env c.world.fresh () w') :
    ∃ s s' v', c.world.getShipment id = some s ∧
      Paired env carrier id [] s (c.world.fresh.signed carrier) c.world ∧
      (∀ item ∈ items, item.2 ≠ 0) ∧ c.world.getMilestoneEventCount id + items.length ≤
        c.world.getConfig.maxMilestonesPerShipment ∧
      (items.foldlM (recordBatchItem carrier id) s).Returns env (c.world.fresh.signed carrier) s' v' ∧
      w' = v'.store s'.finalizeIfSettled := by
  obtain ⟨hcar, -, hhash, s, hs, hr, -, hroom, s', v', hfold, hend⟩ :=
    returns_recordMilestonesBatch.mp hx
  have hcar : c.world.Carries env carrier :=
    ⟨hcar.initialized, hcar.running, hcar.signed, hcar.carrier⟩
  exact ⟨s, s', v', hs, hc.paired hcar hs hr, hhash, hroom, hfold, hend⟩

/-- A batch with names that concur agrees with single recordings. -/
theorem Reachable.agrees (hc : Reachable c)
    (hlen : items.length ≤ c.world.getConfig.batchOperationLimit)
    (hcon : c.world.Concurs env carrier id items) : c.world.Agrees env carrier id items := by
  have hmax := hc.maxMilestones_le
  have hsingles : ∀ w', (recordMilestonesBatch carrier id items).Returns env c.world.fresh () w' →
      ∃ r, recordEach carrier id env c.world items = some r ∧
        transfersIn w'.trace = transfersIn r.1 ∧ w'.fresh = r.2.fresh := by
    intro w' hx
    obtain ⟨s, s', v', hs, hp, hhash, hroom, hfold, rfl⟩ := hc.of_batch hx
    obtain ⟨r, hr, hend⟩ := hp.singles (hcon.names s hs) hhash hroom hmax hfold
    exact ⟨r, hr, hend.ends⟩
  have hreturns : ∀ s, c.world.Carries env carrier → c.world.getShipment id = some s →
      s.Recordable carrier → (∀ item ∈ items, item.2 ≠ 0) →
      c.world.getMilestoneEventCount id + items.length ≤
        c.world.getConfig.maxMilestonesPerShipment →
      (∃ s' v', (items.foldlM (recordBatchItem carrier id) s).Returns env
        (c.world.fresh.signed carrier) s' v') →
      ∃ w', (recordMilestonesBatch carrier id items).Returns env c.world.fresh () w' := by
    rintro s hcar hs hr hhash hroom ⟨s', v', hfold⟩
    exact ⟨_, returns_recordMilestonesBatch.mpr
      ⟨⟨hcar.initialized, hcar.running, hcar.signed, hcar.carrier⟩, hlen, hhash, s, hs, hr,
        hroom.trans hmax, hroom, s', v', hfold, rfl⟩⟩
  refine ⟨⟨?_, ?_⟩, ?_⟩
  · rintro ⟨w', hx⟩
    obtain ⟨r, hr, -⟩ := hsingles w' hx
    exact ⟨r, hr⟩
  · rintro ⟨r, he⟩
    cases items with
    | nil =>
      obtain ⟨hcar, s, hs, hr, hroom⟩ := hcon.empty rfl
      exact hreturns s hcar hs hr (by simp) hroom ⟨s, _, returns_pure.mpr ⟨rfl, rfl⟩⟩
    | cons item items =>
      obtain ⟨_, _, hx, -, -⟩ := recordEach_cons.mp he
      obtain ⟨hcar, s, hs, hr, -⟩ := returns_recordMilestone.mp hx
      have hcar : c.world.Carries env carrier :=
        ⟨hcar.initialized, hcar.running, hcar.signed, hcar.carrier⟩
      obtain ⟨hhash, hroom, hfold⟩ := (hc.paired hcar hs hr).batch (hcon.names s hs) hmax he
      exact hreturns s hcar hs hr hhash (hroom.resolve_left (List.cons_ne_nil _ _)) hfold
  · intro w' r hx he
    obtain ⟨r', hr', hends⟩ := hsingles w' hx
    obtain rfl := Option.some.inj (he.symm.trans hr')
    exact hends

/-- The record of a batch keeps its id. -/
theorem wp_recordBatchItems_keyed :
    wp (items.foldlM (recordBatchItem carrier id) s) env w fun s' _ => s'.id = s.id := by
  refine wp_foldlM _ (fun _ s' _ => s'.id = s.id) items s w rfl ?_
  intro item rest s₁ w₁ hs₁
  exact wp_recordBatchItem_id.mono fun _ _ hs => hs.trans hs₁

/-- Where one of the two goes through and they agree, the names concur. -/
theorem Reachable.concurs (hc : Reachable c)
    (hone : (∃ w', (recordMilestonesBatch carrier id items).Returns env c.world.fresh () w') ∨
      ∃ r, recordEach carrier id env c.world items = some r)
    (h : c.world.Agrees env carrier id items) : c.world.Concurs env carrier id items := by
  obtain ⟨hiff, hends⟩ := h
  obtain ⟨w', hx⟩ := hone.elim (fun hb => hb) hiff.mpr
  obtain ⟨r, he⟩ := hiff.mp ⟨w', hx⟩
  obtain ⟨-, hsame⟩ := hends w' r hx he
  obtain ⟨s, s', v', hs, hp, -, hroom, hfold, rfl⟩ := hc.of_batch hx
  refine ⟨?_, ?_⟩
  · rintro rfl
    exact ⟨hp.carries, s, hs, hp.recordable, hroom⟩
  · intro t ht
    obtain rfl := Option.some.inj (hs.symm.trans ht)
    -- the record that the single recordings leave is the one the batch stores
    have hid : s'.id = id := (wp_recordBatchItems_keyed.of_returns hfold).trans hp.keyed
    have hstored : r.2.ledger.shipment id = some s'.finalizeIfSettled := by
      have hledger : (v'.store s'.finalizeIfSettled).fresh.ledger = r.2.fresh.ledger := by rw [hsame]
      change r.2.fresh.ledger.shipment id = _
      rw [← hledger]
      exact World.shipment_store hid
    exact hp.concurs hfold he hstored

/-- From every reachable state a batch whose names concur agrees with single recordings of
its items; and where one of the two goes through they agree on no other. -/
theorem batch_recording_agrees (hc : Reachable c) (env : Env) (carrier : Address) (id : ℕ)
    (items : List (Symbol × BytesN32))
    (hlen : items.length ≤ c.world.getConfig.batchOperationLimit) :
    (c.world.Concurs env carrier id items → c.world.Agrees env carrier id items) ∧
    ((∃ w', (recordMilestonesBatch carrier id items).Returns env c.world.fresh () w') ∨
      (∃ r, recordEach carrier id env c.world items = some r) →
      c.world.Agrees env carrier id items → c.world.Concurs env carrier id items) :=
  ⟨hc.agrees hlen, hc.concurs⟩

/-- Two milestones that pay a deposit of 1000 in full. -/
theorem batch_recording_agrees_round : ∃ (c : Chain Deployment.host) (env : Env)
    (items : List (Symbol × BytesN32)) (w' : World Deployment.host)
    (r : List Effect × World Deployment.host), Reachable c ∧ items.length = 2 ∧
      (recordMilestonesBatch Deployment.carrier 1 items).Returns env c.world.fresh () w' ∧
      recordEach Deployment.carrier 1 env c.world items = some r ∧
      transfersIn w'.trace = transfersIn r.1 ∧ w'.fresh = r.2.fresh := by
  let env : Env := ⟨7, 7, fun a => a = Deployment.carrier, fun _ => true⟩
  obtain ⟨ls, c, hr, -, hlen, hnames, hsome⟩ := exists_play Deployment.chain
    (Deployment.opening ++ [
      Deployment.signed Deployment.company 5 (.depositEscrow Deployment.company 1 1000),
      Deployment.signed Deployment.carrier 6 (.updateStatus Deployment.carrier 1 .inTransit 2)])
    (fun r => 2 ≤ r.2.world.getConfig.batchOperationLimit ∧
      (r.2.world.getShipment 1).all (fun s => s.Concurs [Deployment.pickup, Deployment.port]) = true ∧
      (recordEach Deployment.carrier 1 env r.2.world
        [(Deployment.pickup, 3), (Deployment.port, 4)]).isSome = true)
    (by decide +kernel)
  have hreach : Reachable c := ⟨_, ls, Deployment.deployed, hr⟩
  have hcon : c.world.Concurs env Deployment.carrier 1
      [(Deployment.pickup, 3), (Deployment.port, 4)] := by
    refine ⟨fun h => (by cases h), fun s hs => ?_⟩
    rw [hs] at hnames
    exact of_decide_eq_true hnames
  obtain ⟨hiff, hsame⟩ := (batch_recording_agrees hreach env Deployment.carrier 1
    [(Deployment.pickup, 3), (Deployment.port, 4)] hlen).1 hcon
  obtain ⟨r, he⟩ := Option.isSome_iff_exists.mp hsome
  obtain ⟨w', hb⟩ := hiff.mpr ⟨r, he⟩
  exact ⟨c, env, _, w', r, hreach, rfl, hb, he, hsame w' r hb he⟩

/-- Of a deposit of 101 a batch of both milestones leaves one unit in escrow, which single
recordings pay. -/
theorem batch_leaves_remainder : ¬∀ c : Chain Deployment.host, Reachable c →
    ∀ (env : Env) (carrier : Address) (id : ℕ) (items : List (Symbol × BytesN32)),
      items.length ≤ c.world.getConfig.batchOperationLimit →
      c.world.Agrees env carrier id items := by
  intro hall
  let env : Env := ⟨7, 7, fun a => a = Deployment.carrier, fun _ => true⟩
  let items : List (Symbol × BytesN32) := [(Deployment.pickup, 3), (Deployment.port, 4)]
  obtain ⟨ls, c, hr, -, hlen, hbatch, hsingles⟩ := exists_play Deployment.chain
    (Deployment.opening ++ [
      Deployment.signed Deployment.company 5 (.depositEscrow Deployment.company 1 101),
      Deployment.signed Deployment.carrier 6 (.updateStatus Deployment.carrier 1 .inTransit 2)])
    (fun r => items.length ≤ r.2.world.getConfig.batchOperationLimit ∧
      ((recordMilestonesBatch Deployment.carrier 1 items).result? env r.2.world.fresh).any
        (fun q => (q.2.getShipment 1).any (·.escrowAmount = 1)) = true ∧
      (recordEach Deployment.carrier 1 env r.2.world items).any
        (fun q => (q.2.getShipment 1).any (·.escrowAmount = 0)) = true)
    (by decide +kernel)
  obtain ⟨q, he, hq⟩ := (Option.any_eq_true _ _).mp hsingles
  obtain ⟨⟨u, w'⟩, hb, hw'⟩ := (Option.any_eq_true _ _).mp hbatch
  obtain ⟨-, hsame⟩ := hall c ⟨_, ls, Deployment.deployed, hr⟩ env Deployment.carrier 1 items hlen
  obtain ⟨-, hfresh⟩ := hsame w' q (result?_eq_some.mp hb) he
  have hget : w'.getShipment 1 = q.2.getShipment 1 := by
    change w'.fresh.getShipment 1 = q.2.fresh.getShipment 1
    rw [hfresh]
  rw [hget] at hw'
  obtain ⟨s, hs, h1⟩ := (Option.any_eq_true _ _).mp hw'
  obtain ⟨t, ht, h0⟩ := (Option.any_eq_true _ _).mp hq
  obtain rfl := Option.some.inj (hs.symm.trans ht)
  have h1 := of_decide_eq_true h1
  have h0 := of_decide_eq_true h0
  omega

end Navin
