import Mathlib.Data.Int.Basic
import Mathlib.Data.Nat.Find

namespace HermEX.Framework.Civil

def leap (y : Int) : Bool := y%4=0 && (y%100≠0 || y%400=0)

def yearStart (y : Int) : Int := 365*(y-1)+(y-1)/4-(y-1)/100+(y-1)/400-719162

def daysBefore : List Int := [0,31,59,90,120,151,181,212,243,273,304,334]

def monthStart (i : Int) : Int :=
  yearStart (i/12)+daysBefore.getD (i%12).toNat 0 +
    (if leap (i/12) && decide (2 ≤ i%12) then 1 else 0)

def monthLength (i : Int) : Int := monthStart (i+1)-monthStart i

def yearOf (d : Int) : Int :=
  let y := 400*(d+719162)/146097+1
  if d<yearStart y then y-1 else if yearStart (y+1)≤d then y+1 else y

def monthOf (d : Int) : Int :=
  12*yearOf d+Nat.findGreatest (fun m => monthStart (12*yearOf d+m)≤d) 11

def dayOf (d : Int) : Int := d-monthStart (monthOf d)+1

def weekday (d : Int) : Fin 7 := ⟨((d+4)%7).toNat,by omega⟩

theorem leap_eq (y : Int) :
    leap y=true ↔ y%4=0 ∧ (y%100≠0 ∨ y%400=0) := by
  simp [leap]

theorem yearStart_succ (y : Int) :
    yearStart (y+1)=yearStart y+365+(if leap y then 1 else 0) := by
  have hl := leap_eq y
  unfold yearStart
  split_ifs with h
  · have := hl.mp h
    omega
  · have : ¬ (y%4=0 ∧ (y%100≠0 ∨ y%400=0)) := fun hc => h (hl.mpr hc)
    omega

theorem daysBefore_gap : ∀ m<11,daysBefore.getD m 0+28≤daysBefore.getD (m+1) 0 ∧
    daysBefore.getD (m+1) 0≤daysBefore.getD m 0+31 := by
  decide

theorem monthLength_bounds (i : Int) : 28 ≤ monthLength i ∧ monthLength i≤31 := by
  unfold monthLength monthStart
  by_cases hlast : i%12=11
  · have hd : (i+1)/12=i/12+1 := by omega
    have hr : (i+1)%12=0 := by omega
    have hfirst : daysBefore.getD (0 : Int).toNat 0=0 := rfl
    have hdecember : daysBefore.getD (11 : Int).toNat 0=334 := rfl
    have hday : (if leap (i/12) && decide (2≤(11 : Int)) then (1 : Int) else 0) =
        if leap (i/12) then 1 else 0 := by
      cases leap (i/12) <;> rfl
    have hnone : (if leap (i/12+1) && decide (2≤(0 : Int)) then (1 : Int) else 0)=0 := by
      cases leap (i/12+1) <;> rfl
    rw [hd,hr,hlast,yearStart_succ,hfirst,hdecember,hday,hnone]
    split_ifs <;> omega
  · have hd : (i+1)/12=i/12 := by omega
    have hr : (i+1)%12=i%12+1 := by omega
    have hm : (i%12+1).toNat=(i%12).toNat+1 := by omega
    have hgap := daysBefore_gap (i%12).toNat (by omega)
    rw [hd,hr,hm]
    -- only February ends on a day that a leap year adds
    by_cases hfeb : i%12=1
    · have hfeb1 : daysBefore.getD (1 : Int).toNat 0=31 := rfl
      have hmarch : daysBefore.getD ((1 : Int).toNat+1) 0=59 := rfl
      have hpast : decide (2≤(1 : Int)+1)=true := rfl
      have hbefore : decide (2≤(1 : Int))=false := rfl
      rw [hfeb,hfeb1,hmarch,hpast,hbefore,Bool.and_true,Bool.and_false,if_neg Bool.false_ne_true]
      split_ifs <;> omega
    · have hday : (if leap (i/12) && decide (2 ≤ i%12+1) then (1 : Int) else 0) =
          if leap (i/12) && decide (2 ≤ i%12) then 1 else 0 := by
        have hiff : (2 ≤ i%12+1) ↔ (2 ≤ i%12) := by omega
        simp [hiff]
      rw [hday]
      split_ifs <;> omega

theorem monthStart_mono {i j : Int} (h : i≤j) : monthStart i ≤ monthStart j := by
  obtain ⟨n,rfl⟩ := Int.le.dest h
  induction n with
  | zero => simp
  | succ n ih =>
    have hstep := (monthLength_bounds (i+n)).1
    have hnext : i+(n+1 : Nat)=i+n+1 := by omega
    rw [hnext]
    unfold monthLength at hstep
    omega

theorem yearOf_spec (d : Int) : yearStart (yearOf d)≤d ∧ d<yearStart (yearOf d+1) := by
  unfold yearOf
  simp only
  split_ifs with h h'
  · unfold yearStart at *
    omega
  · unfold yearStart at *
    omega
  · omega

theorem monthStart_year (y : Int) : monthStart (12*y)=yearStart y := by simp [monthStart,daysBefore]

theorem monthOf_spec (d : Int) : monthStart (monthOf d)≤d ∧ d < monthStart (monthOf d+1) := by
  obtain ⟨hlow,hhigh⟩ := yearOf_spec d
  unfold monthOf
  generalize hr : Nat.findGreatest (fun m => monthStart (12*yearOf d+m)≤d) 11=r
  have hstart : monthStart (12*yearOf d+(0 : Nat))≤d := by simpa [monthStart_year] using hlow
  have hle : monthStart (12*yearOf d+r)≤d := by
    rw [← hr]
    exact Nat.findGreatest_spec (P := fun m : Nat => monthStart (12*yearOf d+m)≤d)
      (Nat.zero_le 11) hstart
  refine ⟨hle,?_⟩
  have hr11 : r≤11 := hr ▸ Nat.findGreatest_le 11
  by_cases hlast : r=11
  · have hyear : 12*yearOf d+(r : Nat)+1=12*(yearOf d+1) := by omega
    rw [hyear,monthStart_year]
    exact hhigh
  · have hnext := Nat.findGreatest_is_greatest
      (k := r+1)
      (by rw [hr]; omega) (by omega)
    have hcast : 12*yearOf d+(r : Nat)+1=12*yearOf d+(r+1 : Nat) := by omega
    rw [hcast]
    exact Int.lt_of_not_ge hnext

theorem monthOf_eq {m d : Int} (hlow : monthStart m≤d) (hhigh : d < monthStart (m+1)) :
    monthOf d=m := by
  have hd := monthOf_spec d
  rcases Int.lt_trichotomy (monthOf d) m with h | h | h
  · have hle := monthStart_mono (show monthOf d+1≤ m by omega)
    omega
  · exact h
  · have hle := monthStart_mono (show m+1≤ monthOf d by omega)
    omega

end HermEX.Framework.Civil
