import Mathlib.Tactic.Linarith
import Mathlib.Tactic.Ring
import Sidequest.Tactical.Movement

namespace Sidequest.Tactical

/-!
# Lines of sight

The ray between two cells is drawn with an accumulated error, and what lies strictly between its
ends has to be floor.

* `rayCells`, `lineOfSight`, `adjudicateReach` — the ray, the sight along it, the verdict on reach;
* `nearCell`, `rayCells_eq` — in closed form, the ray goes through the cells nearest to the segment,
  and where two are equally near, through the one towards its start;
* `farCell`, `nearCell_symm` — the ray back goes through the one towards its end instead.
-/

/-! ### The ray -/

/-- The sign of the way from one coordinate to another. -/
def signTo (start stop : Int) : Int := if start < stop then 1 else -1

/-- The loop of the ray to `b`, for a number of rounds: its error, and the cell it is at. -/
def rayLoop (b : Cell) (dx dy sx sy : Int) : Nat → Int → Cell → List Cell
  | 0, _, cell => [cell]
  | rounds + 1, err, cell =>
    if cell = b then [cell]
    else
      let alongX := -dy < 2 * err
      let alongY := 2 * err < dx
      cell :: rayLoop b dx dy sx sy rounds
        (err - (if alongX then dy else 0) + (if alongY then dx else 0))
        (cell.1 + (if alongX then sx else 0), cell.2 + (if alongY then sy else 0))

/-- The cells from `a` to `b`, both included. Every round goes a king's move closer. -/
def rayCells (a b : Cell) : List Cell :=
  let dx : Int := (b.1 - a.1).natAbs
  let dy : Int := (b.2 - a.2).natAbs
  rayLoop b dx dy (signTo a.1 b.1) (signTo a.2 b.2) (chebyshevDistance a b) (dx - dy) a

/-- No wall lies strictly between the cells; their own ground is not looked at. -/
def lineOfSight (a b : Cell) (mask : String) : Bool :=
  (rayCells a b).tail.dropLast.all (isFloor (parseMask mask))

/-! ### The verdict on reach -/

/-- The verdict on whether a target can be attacked. -/
structure RangeAdjudication where
  inRange : Bool
  distanceCells : Nat
  maxCells : Int
  mode : String
  hasLos : Bool
  reason : String
deriving DecidableEq

/-- What the adjudication raises. -/
inductive AdjudicationError where
  | unknownMode (mode : String)
deriving DecidableEq

/-- What a mode calls its distance. -/
def modeNoun (mode : String) : String := if mode = "melee" then "reach" else "range"

/-- Whether a target is near enough, and in sight where that is required. -/
def adjudicateReach (origin target : Cell) (maxCells : Int) (mask mode : String)
    (requireLos : Bool) : Except AdjudicationError RangeAdjudication :=
  if mode ∉ ["melee", "ranged"] then .error (.unknownMode mode)
  else
    let dist := chebyshevDistance origin target
    let hasLos := if requireLos then lineOfSight origin target mask else true
    if maxCells < dist then
      .ok ⟨false, dist, maxCells, mode, hasLos, "target is " ++ toString dist
        ++ " cells away; your " ++ modeNoun mode ++ " is " ++ toString maxCells⟩
    else if requireLos && !hasLos then
      .ok ⟨false, dist, maxCells, mode, hasLos, "no line of sight to the target"⟩
    else .ok ⟨true, dist, maxCells, mode, hasLos, ""⟩

/-! ### Parts of a length -/

/-- The length of `k` of `n` equal parts of `d`, to the nearest whole; a half is left out. -/
def roundDown (n d k : Nat) : Nat := (2 * k * d + n - 1) / (2 * n)

/-- The length of `k` of `n` equal parts of `d`, to the nearest whole; a half counts. -/
def roundUp (n d k : Nat) : Nat := (2 * k * d + n) / (2 * n)

section Parts

variable {n d k j : Nat}

theorem roundDown_eq_iff (hn : 0 < n) :
    roundDown n d k = j ↔ 2 * j * n < 2 * k * d + n ∧ 2 * k * d ≤ 2 * j * n + n := by
  unfold roundDown
  rw [Nat.div_eq_iff (by omega)]
  have hq : j * (2 * n) = 2 * j * n := by ring
  omega

theorem roundUp_eq_iff (hn : 0 < n) :
    roundUp n d k = j ↔ 2 * j * n ≤ 2 * k * d + n ∧ 2 * k * d < 2 * j * n + n := by
  unfold roundUp
  rw [Nat.div_eq_iff (by omega)]
  have hq : j * (2 * n) = 2 * j * n := by ring
  omega

/-- Parts of the length that is divided are whole. -/
theorem roundDown_self (hn : 0 < n) (k : Nat) : roundDown n n k = k := by
  rw [roundDown_eq_iff hn]
  omega

theorem roundDown_zero (n d : Nat) : roundDown n d 0 = 0 := by
  unfold roundDown
  rcases Nat.eq_zero_or_pos n with rfl | hn
  · simp
  · exact Nat.div_eq_of_lt (by omega)

/-- One part more. -/
theorem roundDown_succ (hn : 0 < n) (hd : d ≤ n) (k : Nat) : roundDown n d (k + 1) = roundDown n d k
      + if (2 * roundDown n d k + 1) * n < 2 * (k + 1) * d then 1 else 0 := by
  obtain ⟨hlow, hhigh⟩ := (roundDown_eq_iff hn).mp (rfl : roundDown n d k = roundDown n d k)
  rw [roundDown_eq_iff hn]
  split_ifs with hstep <;> constructor <;> nlinarith

/-- Some of the parts are no longer than all of them. -/
theorem roundUp_le (hn : 0 < n) (hk : k ≤ n) : roundUp n d k ≤ d := by
  obtain ⟨hlow, -⟩ := (roundUp_eq_iff hn).mp (rfl : roundUp n d k = roundUp n d k)
  by_contra hlt
  have hparts : 2 * k * d ≤ 2 * n * d := by nlinarith
  have hover : 2 * (d + 1) * n ≤ 2 * roundUp n d k * n := by
    apply Nat.mul_le_mul_right
    omega
  nlinarith

/-- What is left of the parts is rounded the other way. -/
theorem roundDown_sub (hn : 0 < n) (hk : k ≤ n) : roundDown n d (n - k) = d - roundUp n d k := by
  obtain ⟨hlow, hhigh⟩ := (roundUp_eq_iff hn).mp (rfl : roundUp n d k = roundUp n d k)
  have hle : roundUp n d k ≤ d := roundUp_le hn hk
  generalize roundUp n d k = j at *
  obtain ⟨m, rfl⟩ := Nat.exists_eq_add_of_le hk
  obtain ⟨i, rfl⟩ := Nat.exists_eq_add_of_le hle
  rw [Nat.add_sub_cancel_left, Nat.add_sub_cancel_left, roundDown_eq_iff hn]
  constructor <;> nlinarith

end Parts

/-! ### The ray in closed form -/

/-- The cell nearest to the end of the `k`-th part of the segment; of two that are equally near, the
    one towards `a`. -/
def nearCell (a b : Cell) (k : Nat) : Cell :=
  (a.1 + signTo a.1 b.1 * roundDown (chebyshevDistance a b) (b.1 - a.1).natAbs k,
    a.2 + signTo a.2 b.2 * roundDown (chebyshevDistance a b) (b.2 - a.2).natAbs k)

/-- The cell nearest to the end of the `k`-th part of the segment; of two that are equally near, the
    one towards `b`. -/
def farCell (a b : Cell) (k : Nat) : Cell :=
  (a.1 + signTo a.1 b.1 * roundUp (chebyshevDistance a b) (b.1 - a.1).natAbs k,
    a.2 + signTo a.2 b.2 * roundUp (chebyshevDistance a b) (b.2 - a.2).natAbs k)

section Ray

variable {a b : Cell}

theorem signTo_mul_add (x y : Int) (j : Nat) (hj : j ≤ (y - x).natAbs) :
    y + signTo y x * ((y - x).natAbs - j : Nat) = x + signTo x y * j := by
  unfold signTo
  split <;> split <;> omega

/-- The lengths of the two ways, of which the longer one is the distance. -/
theorem chebyshevDistance_eq (a b : Cell) :
    chebyshevDistance a b = max (b.1 - a.1).natAbs (b.2 - a.2).natAbs := by
  unfold chebyshevDistance
  omega

theorem nearCell_zero (a b : Cell) : nearCell a b 0 = a := by
  unfold nearCell
  rw [roundDown_zero, roundDown_zero]
  ext <;> simp

/-- Before all parts are gone, the ray is not there yet. -/
theorem nearCell_ne {k : Nat} (hk : k < chebyshevDistance a b) : nearCell a b k ≠ b := by
  have hn : 0 < chebyshevDistance a b := by omega
  have hmax := chebyshevDistance_eq a b
  intro heq
  have hx := congrArg Prod.fst heq
  have hy := congrArg Prod.snd heq
  unfold nearCell at hx hy
  dsimp only at hx hy
  -- the longer way is not done
  rcases max_choice (b.1 - a.1).natAbs (b.2 - a.2).natAbs with hlong | hlong
  · rw [← hmax.trans hlong, roundDown_self hn] at hx
    unfold signTo at hx
    split at hx <;> omega
  · rw [← hmax.trans hlong, roundDown_self hn] at hy
    unfold signTo at hy
    split at hy <;> omega

/-- The ray from the other side, seen from this one. -/
theorem nearCell_symm {k : Nat} (hk : k ≤ chebyshevDistance a b) :
    nearCell b a (chebyshevDistance a b - k) = farCell a b k := by
  have hcomm := chebyshevDistance_comm a b
  have hmax := chebyshevDistance_eq a b
  rcases Nat.eq_zero_or_pos (chebyshevDistance a b) with hn | hn
  · have hx : b.1 = a.1 := by omega
    have hy : b.2 = a.2 := by omega
    unfold nearCell farCell
    rw [← hcomm, hn, hx, hy]
    simp [roundDown, roundUp]
  · have hx : (a.1 - b.1).natAbs = (b.1 - a.1).natAbs := by omega
    have hy : (a.2 - b.2).natAbs = (b.2 - a.2).natAbs := by omega
    unfold nearCell farCell
    rw [← hcomm, hx, hy, roundDown_sub hn hk, roundDown_sub hn hk,
      signTo_mul_add a.1 b.1 _ (roundUp_le hn hk), signTo_mul_add a.2 b.2 _ (roundUp_le hn hk)]

/-- The error the loop has accumulated when it is at `cell k`. -/
def rayError (a b : Cell) (k : Nat) : Int :=
  (b.1 - a.1).natAbs - (b.2 - a.2).natAbs
    - roundDown (chebyshevDistance a b) (b.1 - a.1).natAbs k * (b.2 - a.2).natAbs
    + roundDown (chebyshevDistance a b) (b.2 - a.2).natAbs k * (b.1 - a.1).natAbs

/-- What the error is against the shorter of the two ways. -/
theorem shorter_spec {n d : Nat} (hn : 0 < n) (hd : d ≤ n) (k : Nat) :
    -(d : Int) < 2 * ((n : Int) - d - k * d + roundDown n d k * n) ∧
    (2 * ((n : Int) - d - k * d + roundDown n d k * n) < n ↔
      (2 * roundDown n d k + 1) * n < 2 * (k + 1) * d) := by
  obtain ⟨hlow, hhigh⟩ := (roundDown_eq_iff hn).mp (rfl : roundDown n d k = roundDown n d k)
  constructor
  · rcases Nat.lt_or_eq_of_le hd with hlt | rfl
    · linarith
    · rw [roundDown_self hn]
      linarith
  · constructor <;> intro h <;> linarith

/-- **What the error decides.** The loop goes on along a coordinate exactly where one part more is
    rounded to one more. -/
theorem rayError_spec (hn : 0 < chebyshevDistance a b) (k : Nat) :
    (-((b.2 - a.2).natAbs : Int) < 2 * rayError a b k ↔
      (2 * roundDown (chebyshevDistance a b) (b.1 - a.1).natAbs k + 1) * chebyshevDistance a b
        < 2 * (k + 1) * (b.1 - a.1).natAbs) ∧
    (2 * rayError a b k < (b.1 - a.1).natAbs ↔
      (2 * roundDown (chebyshevDistance a b) (b.2 - a.2).natAbs k + 1) * chebyshevDistance a b
        < 2 * (k + 1) * (b.2 - a.2).natAbs) := by
  have hmax := chebyshevDistance_eq a b
  unfold rayError
  generalize chebyshevDistance a b = n at *
  generalize (b.1 - a.1).natAbs = dx at *
  generalize (b.2 - a.2).natAbs = dy at *
  have hlonger : (2 * k + 1) * n < 2 * (k + 1) * n := Nat.mul_lt_mul_of_pos_right (by omega) hn
  rcases max_choice dx dy with hlong | hlong
  · -- the ray is longer from left to right: a column is gone through in every round
    obtain rfl : n = dx := hmax.trans hlong
    obtain ⟨hcolumn, hrow⟩ := shorter_spec hn (show dy ≤ n by omega) k
    rw [roundDown_self hn]
    exact ⟨iff_of_true hcolumn hlonger, hrow⟩
  · obtain rfl : n = dy := hmax.trans hlong
    obtain ⟨hrow, hcolumn⟩ := shorter_spec hn (show dx ≤ n by omega) k
    rw [roundDown_self hn]
    refine ⟨?_, iff_of_true (by linarith) hlonger⟩
    constructor <;> intro h <;> linarith

/-- **The loop**, from where `k` parts are gone. -/
theorem rayLoop_eq (k rounds : Nat) (hk : k + rounds = chebyshevDistance a b) :
    rayLoop b (b.1 - a.1).natAbs (b.2 - a.2).natAbs (signTo a.1 b.1) (signTo a.2 b.2) rounds
      (rayError a b k) (nearCell a b k) = (List.range' k (rounds + 1)).map (nearCell a b) := by
  induction rounds generalizing k with
  | zero => rfl
  | succ rounds ih =>
    have hn : 0 < chebyshevDistance a b := by omega
    have hmax := chebyshevDistance_eq a b
    obtain ⟨hx, hy⟩ := rayError_spec hn k
    have hxnext := roundDown_succ hn (show (b.1 - a.1).natAbs ≤ _ by omega) k
    have hynext := roundDown_succ hn (show (b.2 - a.2).natAbs ≤ _ by omega) k
    have herror : rayError a b (k + 1) = rayError a b k
        - (if -((b.2 - a.2).natAbs : Int) < 2 * rayError a b k then ((b.2 - a.2).natAbs : Int) else 0)
        + (if 2 * rayError a b k < (b.1 - a.1).natAbs then ((b.1 - a.1).natAbs : Int) else 0) := by
      simp only [hx, hy]
      unfold rayError
      rw [hxnext, hynext]
      split_ifs <;> push_cast <;> ring
    have hcell : nearCell a b (k + 1) =
        ((nearCell a b k).1
          + (if -((b.2 - a.2).natAbs : Int) < 2 * rayError a b k then signTo a.1 b.1 else 0),
        (nearCell a b k).2
          + (if 2 * rayError a b k < (b.1 - a.1).natAbs then signTo a.2 b.2 else 0)) := by
      simp only [hx, hy]
      unfold nearCell
      rw [hxnext, hynext]
      split_ifs <;> push_cast <;> ext <;> dsimp only <;> ring
    unfold rayLoop
    rw [if_neg (nearCell_ne (by omega)), List.range'_succ, List.map_cons, ← ih (k + 1) (by omega),
      herror, hcell]

/-- **The ray** goes through the nearest cells, a king's move at a time. -/
theorem rayCells_eq (a b : Cell) :
    rayCells a b = (List.range (chebyshevDistance a b + 1)).map (nearCell a b) := by
  have hstart : rayError a b 0 = (b.1 - a.1).natAbs - (b.2 - a.2).natAbs := by
    unfold rayError
    rw [roundDown_zero, roundDown_zero]
    simp
  unfold rayCells
  rw [List.range_eq_range', ← rayLoop_eq 0 (chebyshevDistance a b) (Nat.zero_add _), nearCell_zero,
    hstart]

/-- **The loop ends at its goal**: as many rounds as the distance are enough. -/
theorem getLast?_rayCells (a b : Cell) : (rayCells a b).getLast? = some b := by
  have hgoal : nearCell a b (chebyshevDistance a b) = b := by
    have hback := nearCell_symm (a := b) (b := a) (Nat.zero_le _)
    rw [Nat.sub_zero, chebyshevDistance_comm] at hback
    rw [hback]
    have hnone : ∀ n d, roundUp n d 0 = 0 := by
      intro n d
      unfold roundUp
      rw [Nat.mul_zero, Nat.zero_mul, Nat.zero_add, Nat.div_eq_zero_iff]
      omega
    unfold farCell
    simp [hnone]
  rw [rayCells_eq, List.range_succ, List.map_append, List.map_singleton, List.getLast?_concat, hgoal]

/-- What is in sight: everything strictly between is floor. -/
theorem lineOfSight_iff (a b : Cell) (mask : String) :
    lineOfSight a b mask = true ↔ ∀ k, 0 < k → k < chebyshevDistance a b →
      isFloor (parseMask mask) (nearCell a b k) = true := by
  have hmiddle : (List.range (chebyshevDistance a b + 1)).tail.dropLast
      = List.range' 1 (chebyshevDistance a b - 1) := by
    rw [List.range_eq_range', List.tail_range']
    cases chebyshevDistance a b with
    | zero => rfl
    | succ n => rw [Nat.add_sub_cancel, Nat.add_sub_cancel, List.range'_concat, List.dropLast_concat]
  unfold lineOfSight
  rw [rayCells_eq, ← List.map_tail, ← List.map_dropLast, List.all_map, List.all_eq_true, hmiddle]
  simp only [List.mem_range'_1, Function.comp_apply]
  constructor
  · intro h k hpos hlt
    exact h k ⟨hpos, by omega⟩
  · rintro h k ⟨hpos, hlt⟩
    exact h k hpos (by omega)

/-- **The sight back**: of two cells that are equally near, the other one counts. -/
theorem lineOfSight_back_iff (a b : Cell) (mask : String) :
    lineOfSight b a mask = true ↔ ∀ k, 0 < k → k < chebyshevDistance a b →
      isFloor (parseMask mask) (farCell a b k) = true := by
  rw [lineOfSight_iff, chebyshevDistance_comm b a]
  constructor
  · intro h k hpos hlt
    rw [← nearCell_symm (by omega)]
    exact h (chebyshevDistance a b - k) (by omega) (by omega)
  · intro h k hpos hlt
    have hback := h (chebyshevDistance a b - k) (by omega) (by omega)
    rwa [← nearCell_symm (by omega), Nat.sub_sub_self (by omega)] at hback

/-- The two rays part after `k` parts: two cells are equally near. -/
def Halfway (a b : Cell) (k : Nat) : Prop := nearCell a b k ≠ farCell a b k

instance (a b : Cell) (k : Nat) : Decidable (Halfway a b k) := inferInstanceAs (Decidable (¬ _))

/-- The walls tell the two rays apart: where they agree nothing is in the way, and just one of them
    is blocked where they part. -/
def Parted (rows : Rows) (a b : Cell) : Prop :=
  (∀ k < chebyshevDistance a b, 0 < k → ¬ Halfway a b k → isFloor rows (nearCell a b k) = true) ∧
  ¬ ((∀ k < chebyshevDistance a b, 0 < k → Halfway a b k → isFloor rows (nearCell a b k) = true) ↔
    ∀ k < chebyshevDistance a b, 0 < k → Halfway a b k → isFloor rows (farCell a b k) = true)

/-- All of what lies between, split by a property of it. -/
theorem forall_split_iff {P Q : Nat → Prop} {n : Nat} : (∀ k, 0 < k → k < n → P k) ↔
      (∀ k < n, 0 < k → ¬ Q k → P k) ∧ ∀ k < n, 0 < k → Q k → P k := by
  constructor
  · intro h
    exact ⟨fun k hlt hpos _ => h k hpos hlt, fun k hlt hpos _ => h k hpos hlt⟩
  · rintro ⟨hnot, hq⟩ k hpos hlt
    by_cases hk : Q k
    · exact hq k hlt hpos hk
    · exact hnot k hlt hpos hk

/-- **Sight is mutual** exactly where the walls do not tell the two rays apart. -/
theorem lineOfSight_symm_iff (a b : Cell) (mask : String) :
    lineOfSight a b mask = lineOfSight b a mask ↔ ¬ Parted (parseMask mask) a b := by
  have hagree : (∀ k < chebyshevDistance a b, 0 < k → ¬ Halfway a b k →
        isFloor (parseMask mask) (farCell a b k) = true) ↔
      ∀ k < chebyshevDistance a b, 0 < k → ¬ Halfway a b k →
        isFloor (parseMask mask) (nearCell a b k) = true := by
    refine forall₄_congr (fun k _ _ hk => ?_)
    rw [not_not.mp hk]
  rw [Bool.eq_iff_iff, lineOfSight_iff, lineOfSight_back_iff,
    forall_split_iff (Q := Halfway a b), forall_split_iff (Q := Halfway a b), hagree]
  unfold Parted
  tauto

/-! ### Halves -/

/-- The two roundings part where a half is left over. -/
theorem roundDown_ne_roundUp_iff {n d k : Nat} (hn : 0 < n) :
    roundDown n d k ≠ roundUp n d k ↔ ∃ j, 2 * k * d = (2 * j + 1) * n := by
  constructor
  · intro hne
    obtain ⟨hlow, hhigh⟩ := (roundDown_eq_iff hn).mp (rfl : roundDown n d k = roundDown n d k)
    refine ⟨roundDown n d k, ?_⟩
    rw [ne_comm, ne_eq, roundUp_eq_iff hn, not_and_or] at hne
    rw [Nat.add_mul, Nat.one_mul]
    omega
  · rintro ⟨j, hj⟩
    rw [Nat.add_mul, Nat.one_mul] at hj
    have hdown : roundDown n d k = j := (roundDown_eq_iff hn).mpr (by omega)
    have hup : roundUp n d k = j + 1 := by
      rw [roundUp_eq_iff hn, Nat.mul_add, Nat.add_mul]
      omega
    omega

/-- **Where the longer way has an odd number of the parts** that both ways are made of, no two cells
    are equally near. -/
theorem not_halfway_of_odd (hodd : Odd (chebyshevDistance a b
    / Nat.gcd (b.1 - a.1).natAbs (b.2 - a.2).natAbs)) (k : Nat) : ¬ Halfway a b k := by
  have hmax := chebyshevDistance_eq a b
  have hn : 0 < chebyshevDistance a b := by
    rcases Nat.eq_zero_or_pos (chebyshevDistance a b) with hzero | hpos
    · rw [hzero, Nat.zero_div] at hodd
      simp at hodd
    · exact hpos
  have hsame : ∀ d, Nat.gcd (b.1 - a.1).natAbs (b.2 - a.2).natAbs ∣ d →
      roundDown (chebyshevDistance a b) d k = roundUp (chebyshevDistance a b) d k := by
    rintro d ⟨e, rfl⟩
    by_contra hne
    obtain ⟨j, hj⟩ := (roundDown_ne_roundUp_iff hn).mp hne
    have hdvd : Nat.gcd (b.1 - a.1).natAbs (b.2 - a.2).natAbs ∣ chebyshevDistance a b := by
      rcases max_choice (b.1 - a.1).natAbs (b.2 - a.2).natAbs with hlong | hlong
      · rw [hmax, hlong]
        exact Nat.gcd_dvd_left _ _
      · rw [hmax, hlong]
        exact Nat.gcd_dvd_right _ _
    generalize Nat.gcd (b.1 - a.1).natAbs (b.2 - a.2).natAbs = g at *
    obtain ⟨p, hp⟩ := hdvd
    have hg : 0 < g := Nat.pos_of_mul_pos_right (hp ▸ hn)
    rw [hp, Nat.mul_div_cancel_left p hg] at hodd
    -- an even number of parts would be an odd multiple of an odd number
    have heven : 2 * k * e = (2 * j + 1) * p := by
      apply Nat.eq_of_mul_eq_mul_left hg
      rw [hp] at hj
      linarith
    have hboth : Odd ((2 * j + 1) * p) := (odd_two_mul_add_one j).mul hodd
    rw [← heven, mul_assoc] at hboth
    exact (Nat.not_odd_iff_even.mpr (even_two_mul _)) hboth
  rw [Halfway, not_not]
  unfold nearCell farCell
  rw [hsame _ (Nat.gcd_dvd_left _ _), hsame _ (Nat.gcd_dvd_right _ _)]

/-- The verdicts on the way there and back differ in nothing but the sight. -/
theorem adjudicateReach_symm_iff (a b : Cell) (maxCells : Int) (mask mode : String)
    (requireLos : Bool) :
    adjudicateReach a b maxCells mask mode requireLos
        = adjudicateReach b a maxCells mask mode requireLos ↔
      mode ∉ ["melee", "ranged"] ∨ requireLos = false ∨
        lineOfSight a b mask = lineOfSight b a mask := by
  unfold adjudicateReach
  rw [chebyshevDistance_comm b a]
  by_cases hmode : mode ∉ ["melee", "ranged"]
  · rw [if_pos hmode, if_pos hmode]
    exact iff_of_true rfl (.inl hmode)
  · rw [if_neg hmode, if_neg hmode, or_iff_right hmode]
    cases requireLos with
    | false => exact iff_of_true rfl (.inl rfl)
    | true =>
      rw [or_iff_right (by simp)]
      dsimp only
      rw [if_pos rfl, if_pos rfl]
      constructor
      · intro h
        -- whatever the verdict, it says whether there was sight
        split_ifs at h <;> simp_all
      · intro h
        rw [h]

/-- **Sight there and back.** It is mutual exactly where the walls do not tell the two rays apart,
    and always where the longer way has an odd number of parts; the verdict on reach is the same
    both ways exactly if sight is mutual or is not asked for. -/
theorem sight_there_and_back (a b : Cell) (mask : String) :
    (lineOfSight a b mask = lineOfSight b a mask ↔ ¬ Parted (parseMask mask) a b) ∧
    (Odd (chebyshevDistance a b / Nat.gcd (b.1 - a.1).natAbs (b.2 - a.2).natAbs) →
      lineOfSight a b mask = lineOfSight b a mask) ∧
    ∀ (maxCells : Int) (mode : String) (requireLos : Bool),
      adjudicateReach a b maxCells mask mode requireLos
          = adjudicateReach b a maxCells mask mode requireLos ↔
        mode ∉ ["melee", "ranged"] ∨ requireLos = false ∨ ¬ Parted (parseMask mask) a b := by
  refine ⟨lineOfSight_symm_iff a b mask, fun hodd => ?_, fun maxCells mode requireLos => ?_⟩
  · rw [lineOfSight_symm_iff]
    rintro ⟨-, hparted⟩
    have hnone := not_halfway_of_odd hodd
    exact hparted (iff_of_true (fun k _ _ h => absurd h (hnone k)) fun k _ _ h => absurd h (hnone k))
  · rw [adjudicateReach_symm_iff, lineOfSight_symm_iff]

/-- A knight's move with a wall beside the start: the ray there meets the wall, the ray back passes
    on the other side. -/
theorem not_sight_there_and_back :
    lineOfSight (0, 0) (2, 1) ".#.\n..." = false ∧ lineOfSight (2, 1) (0, 0) ".#.\n..." = true ∧
    adjudicateReach (0, 0) (2, 1) 6 ".#.\n..." "ranged" true
      ≠ adjudicateReach (2, 1) (0, 0) 6 ".#.\n..." "ranged" true := by
  decide

end Ray

end Sidequest.Tactical
