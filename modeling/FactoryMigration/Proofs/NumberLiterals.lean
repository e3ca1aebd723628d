import FactoryMigration.Proofs.CompactReading
import FactoryMigration.Proofs.NearestBinary

set_option autoImplicit false

/-! # Exact numbers

Number literals are read exactly: as an integer if they are one of 64 bits, and else as the binary
fraction nearest to their decimal value. So every number is read back from its text
(`Number.readBy_exact?`). -/

namespace FactoryMigration

/-! ## First digits -/

theorem Text.head?_toDigits {n : Nat} (h : n ≠ 0) : (Nat.toDigits 10 n).head? ≠ some '0' := by
  induction n using Nat.strongRecOn with
  | ind n ih =>
    by_cases hlt : n < 10
    · rw [Nat.toDigits_of_lt_base hlt]
      have hone : ∀ m < 10, m ≠ 0 → m.digitChar ≠ '0' := by decide
      simpa using hone n hlt h
    · rw [Nat.toDigits_of_base_le (by decide) (by omega),
        List.head?_append_of_ne_nil _ Nat.toDigits_ne_nil]
      exact ih (n / 10) (by omega) (by omega)

namespace Json

open Decimal (isMark)

/-! ## Literals -/

/-- Whether a point is followed by a digit, if there is one. -/
def isPointed : List Char → Bool
  | '.' :: rest => rest.head?.any Char.isDigit
  | _ => true

/-- Whether the literal begins as it should: with digits, no zero in front of others, and a digit after
the point. -/
def isLiteral (cs : List Char) : Bool :=
  let whole := cs.takeWhile Char.isDigit
  whole ≠ [] && (whole.head? ≠ some '0' || whole.length = 1) && isPointed (cs.dropWhile Char.isDigit)

/-- Reads a literal without its sign. -/
def unsignedLiteral? (negative : Bool) (cs : List Char) : Option Number :=
  if isLiteral cs then
    let n := Text.ofDigits cs
    if cs.all Char.isDigit ∧ negative = false ∧ n < Text.limit64 then some (.int n)
    else if cs.all Char.isDigit ∧ negative = true ∧ 0 < n ∧ n ≤ Text.limit64 / 2 then some (.int (-n))
    else (Decimal.parse? cs).bind fun x => (Binary64.ofDecimal? negative x.digits x.exponent).map .real
  else none

/-- Reads a literal. -/
def literal? : List Char → Option Number
  | '-' :: cs => unsignedLiteral? true cs
  | cs => unsignedLiteral? false cs

/-- A number and what follows it. -/
def exactNumber? (cs : List Char) : Option (Number × List Char) :=
  (literal? (cs.takeWhile isLiteralChar)).map fun n => (n, cs.dropWhile isLiteralChar)

theorem isLiteral_of_parts {whole rest : List Char} (hwhole : ∀ c ∈ whole, c.isDigit = true)
    (hne : whole ≠ []) (hzero : whole.head? = some '0' → whole.length = 1)
    (hrest : ∀ c ∈ rest.head?, c.isDigit = false) (hpoint : isPointed rest = true) :
    isLiteral (whole ++ rest) = true := by
  obtain ⟨htake, hdrop⟩ := Text.takeWhile_append hwhole hrest
  rw [isLiteral, htake, hdrop]
  simp only [hne, hpoint, ne_eq, not_false_eq_true, decide_true, Bool.true_and, Bool.and_true,
    Bool.or_eq_true, decide_eq_true_eq]
  exact or_iff_not_imp_left.mpr fun h => hzero (not_not.mp h)

theorem isLiteral_of_point {whole fraction : List Char} (hwhole : ∀ c ∈ whole, c.isDigit = true)
    (hne : whole ≠ []) (hzero : whole.head? = some '0' → whole.length = 1)
    (hfraction : ∀ c ∈ fraction, c.isDigit = true) (hmore : fraction ≠ []) (rest : List Char) :
    isLiteral (whole ++ '.' :: (fraction ++ rest)) = true := by
  obtain ⟨c, fraction, rfl⟩ := List.exists_cons_of_ne_nil hmore
  refine isLiteral_of_parts hwhole hne hzero ?_ (hfraction c List.mem_cons_self)
  rintro _ ⟨⟩
  rfl

/-! ## Texts of numbers are literals -/

section

variable {digits : List Char} (hne : digits ≠ []) (hdigits : ∀ c ∈ digits, c.isDigit = true)
  (hhead : digits.head? ≠ some '0')

include hne hdigits

theorem isLiteral_before (n : Nat) :
    isLiteral ('0' :: '.' :: List.replicate n '0' ++ digits) = true := by
  have hfraction : ∀ c ∈ List.replicate n '0' ++ digits, c.isDigit = true :=
    List.forall_mem_append.mpr ⟨fun _ => Text.isDigit_of_mem_zeros, hdigits⟩
  have hliteral := isLiteral_of_point (List.forall_mem_singleton.mpr rfl) (List.cons_ne_nil '0' [])
    (fun _ => rfl) hfraction (by simp [hne]) []
  rwa [List.append_nil] at hliteral

include hhead

theorem isLiteral_zeros (n : Nat) :
    isLiteral (digits ++ List.replicate n '0' ++ ['.', '0']) = true := by
  refine isLiteral_of_point (List.forall_mem_append.mpr
    ⟨hdigits, fun _ => Text.isDigit_of_mem_zeros⟩) (by simp [hne]) (fun hzero => ?_)
    (List.forall_mem_singleton.mpr rfl) (List.cons_ne_nil '0' []) []
  rw [List.head?_append_of_ne_nil _ hne] at hzero
  exact absurd hzero hhead

theorem isLiteral_among {n : Nat} (h : n + 1 < digits.length) (rest : List Char) :
    isLiteral (digits.take (n + 1) ++ '.' :: (digits.drop (n + 1) ++ rest)) = true := by
  refine isLiteral_of_point (fun c hc => hdigits c (List.mem_of_mem_take hc)) (by simp [hne])
    (fun hzero => ?_) (fun c hc => hdigits c (List.mem_of_mem_drop hc)) ?_ rest
  · rw [List.head?_take, if_neg (Nat.succ_ne_zero n)] at hzero
    exact absurd hzero hhead
  · rw [ne_eq, List.drop_eq_nil_iff]
    omega

theorem isLiteral_scientific (part : List Char) :
    isLiteral (digits.take 1 ++ (if digits.length = 1 then [] else '.' :: digits.drop 1)
      ++ 'e' :: part) = true := by
  have hlength : 0 < digits.length := List.length_pos_iff.mpr hne
  rw [List.append_assoc]
  split
  · refine isLiteral_of_parts (fun c hc => hdigits c (List.mem_of_mem_take hc)) (by simp [hne])
      (fun _ => ?_) ?_ rfl
    · rw [List.length_take]
      omega
    · rintro _ ⟨⟩
      rfl
  · exact isLiteral_among hne hdigits hhead (n := 0) (by omega) ('e' :: part)

end

end Json

/-- What a layout writes for a decimal other than zero begins as a literal. -/
theorem Decimal.Layout.isLiteral_digits (layout : Layout) {x : Decimal} (h : x.digits ≠ 0) :
    Json.isLiteral (layout.digits x) = true := by
  obtain ⟨number, exponent⟩ := x
  have hne : Nat.toDigits 10 number ≠ [] := Nat.toDigits_ne_nil
  have hdigits : ∀ c ∈ Nat.toDigits 10 number, c.isDigit = true :=
    fun _ => Text.isDigit_of_mem_toDigits
  have hhead : (Nat.toDigits 10 number).head? ≠ some '0' := Text.head?_toDigits h
  unfold Layout.digits
  dsimp only
  generalize Nat.toDigits 10 number = digits at *
  obtain ⟨lead, hlead⟩ : ∃ lead : Int, exponent + digits.length - 1 = lead := ⟨_, rfl⟩
  rw [hlead]
  split
  · split
    · exact Json.isLiteral_zeros hne hdigits hhead _
    · split
      · have hamong := Json.isLiteral_among hne hdigits hhead (n := lead.toNat) (by omega) []
        rwa [List.append_nil] at hamong
      · exact Json.isLiteral_before hne hdigits _
  · rw [List.append_assoc _ ('e' :: _)]
    exact Json.isLiteral_scientific hne hdigits hhead _

/-! ## Reading back -/

namespace Number

/-- The number is one that a literal can write: a binary fraction, or an integer of 64 bits, signed or
unsigned. -/
def InRange : Number → Prop
  | int n => -(Text.limit64 / 2 : Nat) ≤ n ∧ n < Text.limit64
  | real _ => True

instance : DecidablePred InRange
  | int _ => inferInstanceAs (Decidable (_ ∧ _))
  | real _ => .isTrue trivial

theorem isLiteral_toDigits (n : Nat) : Json.isLiteral (Nat.toDigits 10 n) = true := by
  rw [← List.append_nil (Nat.toDigits 10 n)]
  refine Json.isLiteral_of_parts (fun _ => Text.isDigit_of_mem_toDigits) Nat.toDigits_ne_nil
    (fun hzero => ?_) nofun rfl
  by_cases hn : n = 0
  · rw [hn]
    rfl
  · exact absurd hzero (Text.head?_toDigits hn)

theorem all_isDigit_toDigits (n : Nat) : (Nat.toDigits 10 n).all Char.isDigit = true :=
  List.all_eq_true.mpr fun _ => Text.isDigit_of_mem_toDigits

theorem unsignedLiteral?_int {n : Nat} (h : n < Text.limit64) :
    Json.unsignedLiteral? false (Nat.toDigits 10 n) = some (.int n) := by
  rw [Json.unsignedLiteral?, if_pos (isLiteral_toDigits n), Text.ofDigits_toDigits]
  exact if_pos ⟨all_isDigit_toDigits n, rfl, h⟩

theorem unsignedLiteral?_negative {n : Nat} (hpos : 0 < n) (h : n ≤ Text.limit64 / 2) :
    Json.unsignedLiteral? true (Nat.toDigits 10 n) = some (.int (-n)) := by
  rw [Json.unsignedLiteral?, if_pos (isLiteral_toDigits n), Text.ofDigits_toDigits]
  exact (if_neg nofun).trans (if_pos ⟨all_isDigit_toDigits n, rfl, hpos, h⟩)

/-- A literal with a fraction or an exponent is the binary fraction nearest to it. -/
theorem unsignedLiteral?_of_parse? {cs : List Char} (hliteral : Json.isLiteral cs = true)
    (hmark : ∃ c ∈ cs, Decimal.isFractionMark c = true) {x : Decimal}
    (hparse : Decimal.parse? cs = some x) (negative : Bool) :
    Json.unsignedLiteral? negative cs
      = (Binary64.ofDecimal? negative x.digits x.exponent).map .real := by
  have hall : ¬cs.all Char.isDigit = true := by
    obtain ⟨c, hc, hfraction⟩ := hmark
    intro hall
    have hdigit := List.all_eq_true.mp hall c hc
    rcases (by simpa [Decimal.isFractionMark] using hfraction : c = '.' ∨ c = 'e') with rfl | rfl <;>
      cases hdigit
  rw [Json.unsignedLiteral?, if_pos hliteral]
  dsimp only
  rw [if_neg fun h => hall h.1, if_neg fun h => hall h.1, hparse, Option.bind_some]

theorem unsignedLiteral?_real (x : Binary64) :
    Json.unsignedLiteral? x.negative (if x.significand = 0 then ['0', '.', '0']
      else Json.floatLayout.digits (Decimal.shortest x.significand x.exponent)) = some (.real x) := by
  have hzero := x.significand_eq_zero_iff
  obtain ⟨negative, rank, hrank⟩ := x
  split
  · rename_i h
    obtain rfl : rank = 0 := hzero.mp h
    exact unsignedLiteral?_of_parse? rfl ⟨'.', by simp, rfl⟩ (x := ⟨0, -1⟩) rfl negative
  · rename_i h
    have hpos : 0 < rank := Nat.pos_of_ne_zero (mt hzero.mpr h)
    have hrounds := Decimal.shortest_rounds hpos
    have hdigits : (Decimal.shortest (Binary64.significandAt rank) (Binary64.exponentAt rank)).digits
        ≠ 0 := by
      intro hnone
      have := hrounds.pos
      simp [Decimal.value, hnone] at this
    obtain ⟨y, hparse, hvalue⟩ := Decimal.parse?_digits Json.floatLayout
      (Decimal.shortest (Binary64.significandAt rank) (Binary64.exponentAt rank))
    rw [← hvalue] at hrounds
    refine (unsignedLiteral?_of_parse? (Json.floatLayout.isLiteral_digits hdigits)
      (Decimal.exists_fractionMark_digits _ _) hparse negative).trans ?_
    rw [Binary64.ofDecimal?_of_rounds hpos hrounds hrank]
    rfl

theorem literal?_of_digit {cs : List Char} (h : cs.head? ≠ some '-') :
    Json.literal? cs = Json.unsignedLiteral? false cs := by
  unfold Json.literal?
  split
  · exact absurd rfl h
  · rfl

theorem literal?_text {n : Number} (h : n.InRange) : Json.literal? n.text.toList = some n := by
  cases n with
  | int n =>
    rw [toList_text_int]
    obtain ⟨hlow, hhigh⟩ := h
    split
    · rename_i hn
      obtain ⟨n, rfl⟩ := Int.eq_ofNat_of_zero_le hn
      rw [List.nil_append, literal?_of_digit]
      · exact unsignedLiteral?_int (by exact_mod_cast hhigh)
      · intro hhead
        have hdigit := Text.isDigit_of_mem_toDigits (List.mem_of_head? hhead)
        cases hdigit
    · have hread := unsignedLiteral?_negative (n := n.natAbs) (by omega) (by omega)
      rw [show (-(n.natAbs : Int)) = n by omega] at hread
      exact hread
  | real x =>
    rw [toList_text_real]
    have hread := unsignedLiteral?_real x
    unfold Decimal.Layout.text
    dsimp only
    cases hnegative : x.negative with
    | true =>
      rw [hnegative] at hread
      exact hread
    | false =>
      rw [hnegative] at hread
      rw [if_neg Bool.false_ne_true, literal?_of_digit]
      · exact hread
      · obtain ⟨y, hparse, -⟩ := Decimal.parse?_magnitude Json.floatLayout x
        exact Decimal.head_ne_of_parse? hparse

/-- **Numbers.** Every number is read back from its text. -/
theorem readBy_exact? {n : Number} (h : n.InRange) : Json.ReadBy Json.exactNumber? text n := by
  intro rest hrest
  have hmarks : ∀ c ∈ n.text.toList, Json.isLiteralChar c = true := by
    intro c hc
    rw [Json.isLiteralChar, n.isMark_of_mem_text c hc, Bool.true_or]
  obtain ⟨htake, hdrop⟩ := Text.takeWhile_append hmarks hrest
  rw [Json.exactNumber?, htake, hdrop, literal?_text h, Option.map_some]

end Number

end FactoryMigration
