import Minipro.Library.Pacing

namespace Minipro
open Pacing

structure LoopRate where
  now : ℚ
  prev : ℚ
  period : Int

inductive Construction where
  | castOutOfRange
  | divisionByZero
  | threw (what : String)
  | constructed (loopRate : LoopRate)

structure Lap where
  body : ℚ
  delay : ℚ
  body_nonneg : 0 ≤ body
  delay_nonneg : 0 ≤ delay

namespace LoopRate

def oneSecond : Int := 1000

def truncated (q : ℚ) : Int := q.num.tdiv q.den

def unitCastInt (q : ℚ) : Option Int :=
  if -2^31 ≤ truncated q ∧ truncated q < 2^31 then some (truncated q) else none

-- An integer argument is converted to double, and the result is finite.
def isInf (_ : Int) : Bool := false
def isNan (_ : Int) : Bool := false

def construct (hz now prev : ℚ) : Construction :=
  match unitCastInt hz with
  | none => .castOutOfRange
  | some divisor =>
      if divisor = 0 then .divisionByZero
      else
        let periodValue := oneSecond.tdiv divisor
        if isInf periodValue || isNan periodValue then
          .threw "LoopRate: divide-by-zero: invalid frequency specified"
        else .constructed { now := now, prev := prev, period := periodValue }

def sleep (r : LoopRate) (l : Lap) : LoopRate :=
  let now := r.prev + l.body
  let workTime := now - r.prev
  let asked := if workTime < r.period then r.period - workTime else 0
  { r with now := now, prev := now + asked + l.delay }

def returned (r : LoopRate) (laps : List Lap) (k : Nat) : ℚ := ((laps.take k).foldl sleep r).prev

theorem sleep_advances (p : Int) :
    Advances sleep LoopRate.prev (p : ℚ) (fun r => r.period = p) where
  keeps := fun _ _ h => h
  advances := by
    rintro r l rfl
    have hb := l.body_nonneg
    have hd := l.delay_nonneg
    simp only [sleep,add_sub_cancel_left]
    split <;> linarith

theorem returned_window (r : LoopRate) {laps : List Lap} {k n : Nat} (h : k+n ≤ laps.length) :
    returned r laps k + n * r.period ≤ returned r laps (k+n) := by
  have hw := (sleep_advances r.period).window rfl h
  rwa [nsmul_eq_mul] at hw

def idle : Lap := ⟨0,0,le_rfl,le_rfl⟩

theorem returned_idle (r : LoopRate) (hp : 0 ≤ r.period) :
    returned r [idle,idle] 2 = returned r [idle,idle] 1 + r.period := by
  have hq : (0 : ℚ) ≤ r.period := by exact_mod_cast hp
  simp only [returned,List.take,List.foldl,sleep,idle]
  split <;> split <;> linarith

theorem truncated_floor {q : ℚ} (h : 0 ≤ q) : truncated q = ⌊q⌋ := by
  rw [truncated,Rat.floor_def',Int.tdiv_eq_ediv_of_nonneg (Rat.num_nonneg.mpr h)]

theorem truncated_neg (q : ℚ) : truncated (-q) = -truncated q := by
  simp only [truncated,Rat.num_neg_eq_neg_num,Rat.den_neg_eq_den,Int.neg_tdiv]

theorem truncated_nonpos {q : ℚ} (h : q ≤ 0) : truncated q ≤ 0 := by
  have hf : 0 ≤ ⌊-q⌋ := Int.floor_nonneg.mpr (by linarith)
  rw [← truncated_floor (by linarith),truncated_neg] at hf
  omega

theorem truncated_range (q : ℚ) : (1 ≤ truncated q ∧ truncated q ≤ 1000) ↔ 1 ≤ q ∧ q < 1001 := by
  rcases le_total 0 q with h | h
  · rw [truncated_floor h,Int.le_floor,← Int.lt_add_one_iff,Int.floor_lt]
    norm_num
  · have ht := truncated_nonpos h
    refine iff_of_false (fun hr => ?_) (fun hr => ?_)
    · omega
    · linarith [hr.1]

theorem one_le_period_iff (d : Int) : 1 ≤ oneSecond.tdiv d ↔ 1 ≤ d ∧ d ≤ 1000 := by
  rw [Int.tdiv_eq_ediv_of_nonneg (by decide)]
  rcases Int.lt_or_le 0 d with h | h
  · rw [Int.le_ediv_iff_mul_le h,oneSecond]
    omega
  · have hn : oneSecond / d ≤ 0 := Int.ediv_nonpos_of_nonneg_of_nonpos (by decide) h
    omega

def FitsInt (q : ℚ) : Prop := -2^31 ≤ truncated q ∧ truncated q < 2^31

theorem construct_eq {hz : ℚ} (h : FitsInt hz) (h0 : truncated hz ≠ 0) (now prev : ℚ) :
    construct hz now prev =
      .constructed { now := now, prev := prev, period := oneSecond.tdiv (truncated hz) } := by
  have hc : unitCastInt hz = some (truncated hz) := if_pos h
  simp only [construct,hc,if_neg h0]
  rfl

theorem construct_zero {hz : ℚ} (h0 : truncated hz = 0) (now prev : ℚ) :
    construct hz now prev = .divisionByZero := by
  have hc : unitCastInt hz = some 0 := by
    rw [unitCastInt,h0]
    rfl
  simp only [construct,hc,if_true]

structure Safe (hz : ℚ) : Prop where
  total : ∀ now prev, (∃ what, construct hz now prev = .threw what) ∨
    ∃ r, construct hz now prev = .constructed r ∧ 1 ≤ r.period
  paces : ∀ now prev r, construct hz now prev = .constructed r → ∀ laps k,
    k+1 ≤ laps.length → returned r laps k + 1 ≤ returned r laps (k+1)

theorem construct_safe_iff (hz : ℚ) (h : FitsInt hz) : Safe hz ↔ 1 ≤ hz ∧ hz < 1001 := by
  rw [← truncated_range,← one_le_period_iff]
  constructor
  · intro hs
    by_cases h0 : truncated hz = 0
    · rcases hs.total 0 0 with ⟨what,hw⟩ | ⟨r,hr,-⟩
      · rw [construct_zero h0] at hw
        cases hw
      · rw [construct_zero h0] at hr
        cases hr
    · rcases hs.total 0 0 with ⟨what,hw⟩ | ⟨r,hr,hp⟩
      · rw [construct_eq h h0] at hw
        cases hw
      · rw [construct_eq h h0] at hr
        cases hr
        exact hp
  · intro hp
    have h0 : truncated hz ≠ 0 := by
      intro h0
      rw [h0] at hp
      exact absurd hp (by decide)
    refine ⟨fun now prev => .inr ⟨_,construct_eq h h0 now prev,hp⟩,?_⟩
    intro now prev r hr laps k hk
    rw [construct_eq h h0] at hr
    cases hr
    have hw := returned_window
      { now := now, prev := prev, period := oneSecond.tdiv (truncated hz) } hk
    have hq : (1 : ℚ) ≤ oneSecond.tdiv (truncated hz) := by exact_mod_cast hp
    simp only [Nat.cast_one,one_mul] at hw
    linarith

theorem construct_safe_thirty : Safe 30 ↔ (1 : ℚ) ≤ 30 ∧ (30 : ℚ) < 1001 :=
  construct_safe_iff 30 (by simp [FitsInt,truncated])

theorem zero_divides :
    construct 0 0 0 = .divisionByZero ∧ ¬ ∀ hz, FitsInt hz → Safe hz := by
  refine ⟨construct_zero rfl 0 0,?_⟩
  intro h
  rcases (h 0 ⟨by decide,by decide⟩).total 0 0 with ⟨what,hw⟩ | ⟨r,hr,-⟩
  · rw [construct_zero rfl] at hw
    cases hw
  · rw [construct_zero rfl] at hr
    cases hr

def Caps (f : ℚ) : Prop :=
  ∀ now prev, ∃ r, construct f now prev = .constructed r ∧
    ∀ laps k n, 1 ≤ k → k+n ≤ laps.length →
      returned r laps k + n * (1000 / f) ≤ returned r laps (k+n)

theorem le_period_iff {f : ℚ} (hf : 1 ≤ f) (p : Int) :
    p ≤ oneSecond.tdiv (truncated f) ↔ p * ⌊f⌋ ≤ 1000 := by
  have hpos : 0 < ⌊f⌋ := Int.floor_pos.mpr hf
  rw [Int.tdiv_eq_ediv_of_nonneg (by decide),truncated_floor (by linarith),
    Int.le_ediv_iff_mul_le hpos]
  rfl

theorem period_nonneg {f : ℚ} (hf : 1 ≤ f) : 0 ≤ oneSecond.tdiv (truncated f) := by
  rw [le_period_iff hf]
  omega

theorem fitsInt_of_product {f : ℚ} (hf : 1 ≤ f) {p : Nat} (hlo : (p : Int) * ⌊f⌋ ≤ 1000)
    (hhi : 1000 ≤ (p : ℚ) * f) : FitsInt f := by
  have hpos : 0 < ⌊f⌋ := Int.floor_pos.mpr hf
  have hp : (1 : Int) ≤ p := by
    rcases Nat.eq_zero_or_pos p with rfl | hp
    · norm_num at hhi
    · exact_mod_cast hp
  have hfl : ⌊f⌋ ≤ 1000 := by nlinarith
  rw [FitsInt,truncated_floor (by linarith)]
  omega

theorem caps_of_period {f : ℚ} (hf : 1 ≤ f) (h : FitsInt f) :
    Caps f ↔ 1000 ≤ (oneSecond.tdiv (truncated f) : ℚ) * f := by
  have hfl : 0 < ⌊f⌋ := Int.floor_pos.mpr hf
  have h0 : truncated f ≠ 0 := by
    rw [truncated_floor (by linarith)]
    omega
  have hdiv : 1000 / f ≤ (oneSecond.tdiv (truncated f) : ℚ) ↔
      1000 ≤ (oneSecond.tdiv (truncated f) : ℚ) * f := div_le_iff₀ (by linarith)
  rw [← hdiv]
  constructor
  · intro hc
    obtain ⟨r,hr,hw⟩ := hc 0 0
    rw [construct_eq h h0] at hr
    cases hr
    have hi := hw [idle,idle] 1 1 le_rfl le_rfl
    rw [returned_idle _ (period_nonneg hf)] at hi
    simpa using hi
  · intro hp now prev
    refine ⟨_,construct_eq h h0 now prev,?_⟩
    intro laps k n _ hk
    have hw := returned_window
      { now := now, prev := prev, period := oneSecond.tdiv (truncated f) } hk
    have hn : (n : ℚ) * (1000 / f) ≤ n * (oneSecond.tdiv (truncated f) : ℚ) := by gcongr
    exact (add_le_add_right hn _).trans hw

theorem caps_iff (f : ℚ) (hf : 1 ≤ f) :
    Caps f ↔ ∃ p : Nat, (p : Int) * ⌊f⌋ ≤ 1000 ∧ 1000 ≤ (p : ℚ) * f := by
  constructor
  · intro hc
    have h : FitsInt f := by
      by_contra hn
      obtain ⟨r,hr,-⟩ := hc 0 0
      have hu : unitCastInt f = none := if_neg hn
      simp only [construct,hu] at hr
      cases hr
    have hp := (caps_of_period hf h).mp hc
    obtain ⟨p,hpe⟩ := Int.eq_ofNat_of_zero_le (period_nonneg hf)
    refine ⟨p,?_,?_⟩
    · rw [← le_period_iff hf,hpe]
    · rw [hpe] at hp
      exact_mod_cast hp
  · rintro ⟨p,hlo,hhi⟩
    rw [caps_of_period hf (fitsInt_of_product hf hlo hhi)]
    have hle : (p : ℚ) ≤ (oneSecond.tdiv (truncated f) : ℚ) := by
      exact_mod_cast (le_period_iff hf p).mpr hlo
    calc (1000 : ℚ) ≤ p * f := hhi
      _ ≤ (oneSecond.tdiv (truncated f) : ℚ) * f := by gcongr

theorem caps_fifty : Caps 50 ↔ ∃ p : Nat, (p : Int) * ⌊(50 : ℚ)⌋ ≤ 1000 ∧ 1000 ≤ (p : ℚ) * 50 :=
  caps_iff 50 (by norm_num)

theorem thirty_exceeded :
    (∃ r, construct 30 0 0 = .constructed r ∧
      returned r [idle,idle] 2 = returned r [idle,idle] 1 + 33) ∧
    ¬ ∀ f, 1 ≤ f → Caps f := by
  have ht : truncated 30 = 30 := by simp [truncated]
  have hfit : FitsInt 30 := by simp [FitsInt,ht]
  have hp : oneSecond.tdiv (truncated 30) = 33 := by
    rw [ht]
    rfl
  constructor
  · refine ⟨_,construct_eq hfit (by simp [ht]) 0 0,?_⟩
    rw [returned_idle _ (period_nonneg (f := 30) (by norm_num)),hp]
    norm_num
  · intro h
    have hc := (caps_of_period (by norm_num) hfit).mp (h 30 (by norm_num))
    rw [hp] at hc
    norm_num at hc

end LoopRate
end Minipro
