import Spreadsheet.Proofs.Number.Literal

/-!
# The sign of zero

Zero has two floats. Which of them an operation is given shows in its result at most as the sign of a zero,
except for a zero divisor, whose sign is that of an infinite quotient.
-/

namespace Spreadsheet
open Float.Model Float.Model.UnpackedFloat

namespace Number
variable {x y : Float}

theorem unsigned_negZero : unsigned (-0) = 0 := unsigned_of_ofFloat_eq_zero rfl

theorem unsigned_eq_self_or (x : Float) : unsigned x = x ∨ x = -0 := by
  by_cases h : Magnitude.ofFloat x = 0
  · rcases Magnitude.ofFloat_eq_zero_iff.1 h with rfl | rfl
    · exact .inl (unsigned_of_ofFloat_eq_zero rfl)
    · exact .inr rfl
  · exact .inl (unsigned_of_ofFloat_ne_zero h)

theorem unsigned_unsigned (x : Float) : unsigned (unsigned x) = unsigned x := by
  rcases unsigned_eq_self_or x with h | rfl
  · rw [h, h]
  · rw [unsigned_negZero]
    exact unsigned_of_ofFloat_eq_zero rfl

theorem isFinite_unsigned (x : Float) : (unsigned x).isFinite = x.isFinite := by
  rcases unsigned_eq_self_or x with h | rfl
  · rw [h]
  · rw [unsigned_negZero]
    rfl

theorem unsigned_beq_zero (x : Float) : (unsigned x == 0) = (x == 0) := by
  rcases unsigned_eq_self_or x with h | rfl
  · rw [h]
  · rw [unsigned_negZero]
    rfl

theorem unsigned_neg (x : Float) : unsigned (-unsigned x) = unsigned (-x) := by
  rcases unsigned_eq_self_or x with h | rfl
  · rw [h]
  · rw [unsigned_negZero, unsigned_negZero]
    exact (unsigned_of_ofFloat_eq_zero rfl).symm

/-! ### Operations -/

/-- The float of an unpacked one. -/
def packed (u : UnpackedFloat) : Float := .ofModel (.pack u)

theorem unpack_zero : (0 : Float).toModel.unpack = .zero .positive := rfl

theorem unpack_negZero : (-0 : Float).toModel.unpack = .zero .negative := rfl

theorem unsigned_packed_zero (s t : Sign) : unsigned (packed (.zero s)) = unsigned (packed (.zero t)) := by
  cases s <;> cases t <;> rfl

section
variable {op : Float → Float → Float} {f : UnpackedFloat → UnpackedFloat → UnpackedFloat}

theorem unsigned_op_left (hop : ∀ x y, op x y = packed (f x.toModel.unpack y.toModel.unpack))
    (h : ∀ u, unsigned (packed (f (.zero .negative) u)) = unsigned (packed (f (.zero .positive) u)))
    (x y : Float) : unsigned (op (unsigned x) y) = unsigned (op x y) := by
  rcases unsigned_eq_self_or x with hx | rfl
  · rw [hx]
  · rw [unsigned_negZero, hop, hop, unpack_zero, unpack_negZero, h]

theorem unsigned_op_right (hop : ∀ x y, op x y = packed (f x.toModel.unpack y.toModel.unpack))
    (h : ∀ u, unsigned (packed (f u (.zero .negative))) = unsigned (packed (f u (.zero .positive))))
    (x y : Float) : unsigned (op x (unsigned y)) = unsigned (op x y) := by
  rcases unsigned_eq_self_or y with hy | rfl
  · rw [hy]
  · rw [unsigned_negZero, hop, hop, unpack_zero, unpack_negZero, h]

end

theorem unsigned_add (x y : Float) : unsigned (unsigned x + unsigned y) = unsigned (x + y) := by
  have hadd : ∀ x y : Float, x + y = packed (.add .binary64 x.toModel.unpack y.toModel.unpack) :=
    fun _ _ => rfl
  rw [unsigned_op_left hadd fun u => ?_, unsigned_op_right hadd fun u => ?_]
  all_goals cases u with
    | zero s => cases s <;> exact unsigned_packed_zero _ _
    | infinity | notANumber | finite => rfl

theorem unsigned_sub (x y : Float) : unsigned (unsigned x - unsigned y) = unsigned (x - y) := by
  have hsub : ∀ x y : Float, x - y = packed (.sub .binary64 x.toModel.unpack y.toModel.unpack) :=
    fun _ _ => rfl
  rw [unsigned_op_left hsub fun u => ?_, unsigned_op_right hsub fun u => ?_]
  all_goals cases u with
    | zero s => cases s <;> exact unsigned_packed_zero _ _
    | infinity | notANumber | finite => rfl

theorem unsigned_mul (x y : Float) : unsigned (unsigned x * unsigned y) = unsigned (x * y) := by
  have hmul : ∀ x y : Float, x * y = packed (.mul .binary64 x.toModel.unpack y.toModel.unpack) :=
    fun _ _ => rfl
  rw [unsigned_op_left hmul fun u => ?_, unsigned_op_right hmul fun u => ?_]
  all_goals cases u with
    | zero | finite => exact unsigned_packed_zero _ _
    | infinity | notANumber => rfl

/-- The sign of a zero divisor would decide that of an infinite quotient. -/
theorem unsigned_div (x y : Float) : unsigned (unsigned x / y) = unsigned (x / y) := by
  have hdiv : ∀ x y : Float, x / y = packed (.div .binary64 x.toModel.unpack y.toModel.unpack) :=
    fun _ _ => rfl
  refine unsigned_op_left hdiv (fun u => ?_) x y
  cases u with
  | infinity | finite => exact unsigned_packed_zero _ _
  | zero | notANumber => rfl

end Number

end Spreadsheet
