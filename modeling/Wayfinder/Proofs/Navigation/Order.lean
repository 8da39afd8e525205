import Mathlib.Data.List.Sort
import Mathlib.Order.Compare
import Wayfinder.Navigation

/-!
# Targets in order

The order of locations is total, so sorting brings equal locations together and dropping
repeats leaves each of them once.

* `Location.order` is transitive, and only a location itself is at its place in it.
* `arrange_ascending`: arranged targets ascend strictly by location.
* `mem_of_mem_arrange`, `exists_mem_arrange`: nothing is made up, and no location is lost.
* `Ascending.eq_of_mem_iff`: strictly ascending targets are given by their members.
-/

namespace Wayfinder

/-! ## The order of locations -/

namespace Location

/-- The order of locations compares their five parts, one after the other. -/
theorem order_eq_compareLex :
    order = compareLex (compareOn fun a => a.document)
      (compareLex
        (compareLex (compareOn fun a => a.start.line) (compareOn fun a => a.start.character))
        (compareLex (compareOn fun a => a.stop.line) (compareOn fun a => a.stop.character))) :=
  rfl

instance : Std.TransCmp order := by
  rw [order_eq_compareLex]
  infer_instance

instance : Std.LawfulEqCmp order where
  eq_of_compare {a b} h := by
    obtain ⟨document, ⟨line, character⟩, ⟨stopLine, stopCharacter⟩⟩ := a
    obtain ⟨document', ⟨line', character'⟩, ⟨stopLine', stopCharacter'⟩⟩ := b
    simp only [order, Position.order, Ordering.then_eq_eq, Std.LawfulEqCmp.compare_eq_iff_eq] at h
    obtain ⟨rfl, ⟨rfl, rfl⟩, rfl, rfl⟩ := h
    rfl

/-- The first location stands strictly before the second. -/
def IsBefore (a b : Location) : Prop :=
  a.order b = .lt

theorem IsBefore.ne {a b : Location} (h : a.IsBefore b) : a ≠ b := by
  rintro rfl
  have hself : a.order a = .eq := Std.ReflCmp.compare_self
  exact absurd (h.symm.trans hself) (by decide)

theorem IsBefore.asymm {a b : Location} (h : a.IsBefore b) : ¬ b.IsBefore a := by
  intro hback
  exact absurd ((Std.OrientedCmp.gt_of_lt h).symm.trans hback) (by decide)

end Location

namespace Target

theorem precedes_trans (a b c : Target) (hab : a.precedes b = true) (hbc : b.precedes c = true) :
    a.precedes c = true :=
  Std.TransCmp.isLE_trans hab hbc

theorem precedes_total (a b : Target) : (a.precedes b || b.precedes a) = true := by
  have hswap : b.location.order a.location = (a.location.order b.location).swap :=
    Std.OrientedCmp.eq_swap
  unfold precedes
  rw [hswap]
  cases a.location.order b.location <;> rfl

/-- A target that may stand before another at a different place stands strictly before it. -/
theorem isBefore_of_precedes {a b : Target} (h : a.precedes b = true)
    (hne : a.location ≠ b.location) : a.location.IsBefore b.location := by
  rcases Ordering.isLE_iff_eq_lt_or_eq_eq.1 h with hlt | heq
  · exact hlt
  · exact absurd (Std.LawfulEqCmp.eq_of_compare heq) hne

/-- The places of targets ascend strictly. -/
def Ascending (targets : List Target) : Prop :=
  targets.Pairwise fun a b => a.location.IsBefore b.location

theorem Ascending.nodup {targets : List Target} (h : Ascending targets) : targets.Nodup :=
  h.imp fun hbefore heq => hbefore.ne (congrArg Target.location heq)

/-- Strictly ascending targets are given by their members. -/
theorem Ascending.eq_of_mem_iff {targets others : List Target} (htargets : Ascending targets)
    (hothers : Ascending others) (hmem : ∀ target, target ∈ targets ↔ target ∈ others) :
    targets = others := by
  have hperm : targets.Perm others :=
    (List.perm_ext_iff_of_nodup htargets.nodup hothers.nodup).2 hmem
  exact hperm.eq_of_pairwise (fun a b _ _ hab hba => absurd hba hab.asymm) htargets hothers

end Target

/-! ## Dropping repeats and arranging -/

theorem mem_of_mem_dropRepeats {targets : List Target} {target : Target}
    (h : target ∈ dropRepeats targets) : target ∈ targets := by
  fun_induction dropRepeats targets with
  | case1 => exact h
  | case2 only => exact h
  | case3 first second more heq ih =>
    rcases List.mem_cons.1 (ih h) with rfl | hmore
    · exact List.mem_cons_self
    · exact List.mem_cons_of_mem _ (List.mem_cons_of_mem _ hmore)
  | case4 first second more hne ih =>
    rcases List.mem_cons.1 h with rfl | hrest
    · exact List.mem_cons_self
    · exact List.mem_cons_of_mem _ (ih hrest)

/-- Of each place one target is kept. -/
theorem exists_mem_dropRepeats (targets : List Target) :
    ∀ target ∈ targets, ∃ kept ∈ dropRepeats targets, kept.location = target.location := by
  fun_induction dropRepeats targets with
  | case1 => simp
  | case2 only =>
    intro target htarget
    exact ⟨target, htarget, rfl⟩
  | case3 first second more heq ih =>
    intro target htarget
    rcases List.mem_cons.1 htarget with rfl | hrest
    · exact ih target List.mem_cons_self
    · rcases List.mem_cons.1 hrest with rfl | hmore
      · -- This target is dropped, and the one before it stands at its place.
        rw [← heq]
        exact ih first List.mem_cons_self
      · exact ih target (List.mem_cons_of_mem _ hmore)
  | case4 first second more hne ih =>
    intro target htarget
    rcases List.mem_cons.1 htarget with rfl | hrest
    · exact ⟨target, List.mem_cons_self, rfl⟩
    · obtain ⟨kept, hkept, hlocation⟩ := ih target hrest
      exact ⟨kept, List.mem_cons_of_mem _ hkept, hlocation⟩

/-- Without repeats, targets in order ascend strictly. -/
theorem ascending_dropRepeats {targets : List Target}
    (h : targets.Pairwise fun a b => a.precedes b = true) :
    Target.Ascending (dropRepeats targets) := by
  fun_induction dropRepeats targets with
  | case1 => exact List.Pairwise.nil
  | case2 only => exact List.pairwise_singleton _ _
  | case3 first second more heq ih =>
    exact ih (h.sublist ((List.sublist_cons_self second more).cons_cons first))
  | case4 first second more hne ih =>
    obtain ⟨hfirst, hrest⟩ := List.pairwise_cons.1 h
    have hlt : first.location.IsBefore second.location :=
      Target.isBefore_of_precedes (hfirst second List.mem_cons_self) hne
    refine List.pairwise_cons.2 ⟨fun target htarget => ?_, ih hrest⟩
    rcases List.mem_cons.1 (mem_of_mem_dropRepeats htarget) with rfl | hmore
    · exact hlt
    · exact Std.TransCmp.lt_of_lt_of_isLE hlt ((List.pairwise_cons.1 hrest).1 target hmore)

theorem arrange_ascending (targets : List Target) : Target.Ascending (arrange targets) := by
  have hsorted : (targets.mergeSort Target.precedes).Pairwise fun a b => a.precedes b = true :=
    List.pairwise_mergeSort Target.precedes_trans Target.precedes_total targets
  unfold arrange
  exact ascending_dropRepeats hsorted

theorem mem_of_mem_arrange {targets : List Target} {target : Target}
    (h : target ∈ arrange targets) : target ∈ targets := by
  unfold arrange at h
  exact List.mem_mergeSort.1 (mem_of_mem_dropRepeats h)

theorem exists_mem_arrange {targets : List Target} {target : Target} (h : target ∈ targets) :
    ∃ kept ∈ arrange targets, kept.location = target.location := by
  unfold arrange
  exact exists_mem_dropRepeats _ target (List.mem_mergeSort.2 h)

end Wayfinder
