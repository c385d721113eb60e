import HermEX.Oxcical.Utc

namespace HermEX.Oxcical

open Framework

theorem filter_windows {xs : List Int} (h : xs.Pairwise (· < ·)) {a b c : Int} (hab : a≤b)
    (hbc : b ≤ c) :
    xs.filter (inWindow a c)=xs.filter (inWindow a b)++xs.filter (inWindow b c) := by
  induction xs with
  | nil => rfl
  | cons x xs ih =>
    obtain ⟨hx,hxs⟩ := List.pairwise_cons.mp h
    by_cases hb : nanos x<b
    · have hnone : ¬inWindow b c x=true := by
        simp only [inWindow,Bool.and_eq_true,decide_eq_true_eq]
        omega
      have hsame : inWindow a c x=inWindow a b x := by simp [inWindow,hb,show nanos x<c by omega]
      simp only [List.filter_cons,if_neg hnone,hsame,ih hxs]
      by_cases ha : inWindow a b x=true <;> simp [ha]
    · have hlater : ∀ y∈x::xs,b≤nanos y := by
        intro y hy
        rcases List.mem_cons.mp hy with rfl | hy
        · omega
        · have hlt := hx y hy
          unfold nanos at *
          omega
      have hnone : (x::xs).filter (inWindow a b)=[] := by
        apply List.filter_eq_nil_iff.mpr
        intro y hy
        have hle := hlater y hy
        simp [inWindow,hle]
      rw [hnone,List.nil_append]
      apply List.filter_congr
      intro y hy
      have hle := hlater y hy
      simp [inWindow,hle,show a≤nanos y by omega]

namespace Recurrence

variable {r : Recurrence} {seriesStart : Int}

theorem scanned_sublist (r : Recurrence) (seriesStart limit : Int) :
    (r.scanned seriesStart limit).Sublist (periods (r.period seriesStart) 0 (scanLimit limit)) := by
  have hcut : ∀ xs,(cut (r.most limit) xs).Sublist xs := by
    intro xs
    cases r.most limit with
    | none => exact List.Sublist.refl xs
    | some k => exact List.take_sublist k xs
  refine List.Sublist.trans ?_ (hcut _)
  refine (List.takeWhile_sublist _).trans ?_
  split_ifs
  · exact List.take_sublist _ _
  · exact List.Sublist.refl _

/-- The windows of a series make up the whole window. -/
theorem occurrences_windows (r : Recurrence) (seriesStart limit : Int) {a b c : Int} (hab : a ≤ b)
    (hbc : b ≤ c) (hfits : r.Fits seriesStart c limit) :
    let occurrences := fun windowStart windowEnd =>
      r.occurrences64 seriesStart windowStart windowEnd limit
    occurrences a c = occurrences a b ++ occurrences b c ∧
      (occurrences a c).Pairwise (· < ·) ∧
      (∀ t ∈ occurrences a c,seriesStart ≤ t ∧ ∀ u,r.untilTime = some u → t ≤ u) ∧
      (0 < r.count → (occurrences a c).length ≤ r.count) := by
  have hperiod := increasing_period r seriesStart
  dsimp only
  rw [hfits.occurrences,hfits.occurrences,(hfits.mono hbc).occurrences]
  have hsub := scanned_sublist r seriesStart limit
  have hsorted := (hperiod.periods (scanLimit limit)).sublist hsub
  refine ⟨filter_windows hsorted hab hbc,hsorted.filter _,?_,?_⟩
  · intro t ht
    have ht := (List.mem_filter.mp ht).1
    obtain ⟨i,-,-,hi⟩ := mem_periods.mp (hsub.subset ht)
    refine ⟨hperiod.from_ i t hi,?_⟩
    intro u hu
    have huntil := List.mem_takeWhile_imp ht
    simpa [hu] using huntil
  · intro hcount
    have hlength : (r.scanned seriesStart limit).length ≤ r.count.toNat := by
      simp only [scanned,bounded,hcount]
      exact (List.takeWhile_sublist _).length_le.trans (List.length_take_le _ _)
    have hfilter := List.length_filter_le (inWindow a c) (r.scanned seriesStart limit)
    omega

def twice (interval : Int) : Recurrence := ⟨.daily,interval,2,none,[],0,0,0⟩

theorem occurrences_windows_twice :
    (twice 1).Fits 0 (10^15) 0 ∧ (twice 1).occurrences64 0 0 (10^15) 0 =
      (twice 1).occurrences64 0 0 (10^13) 0 ++ (twice 1).occurrences64 0 (10^13) (10^15) 0 := by
  have hfits : (twice 1).Fits 0 (10^15) 0 := by
    intro i hi
    have hi : i<4096 := hi.1
    have hextent : (twice 1).extent 0 i=(86400*(i : Int),86400*(i : Int)) := by
      simp [extent,twice]
    rw [hextent]
    simp only [InRange]
    omega
  exact ⟨hfits,(occurrences_windows (twice 1) 0 0 (by decide) (by decide) hfits).1⟩

/-- 86400 times the interval is 25216 short of 2^64. -/
theorem step_wraps :
    let out := (twice 213503982334601).occurrences64 0 (-10^18) (10^18) 0
    out = [0,-25216] ∧ ¬out.Pairwise (· < ·) := by
  decide +kernel

end Recurrence
end HermEX.Oxcical
