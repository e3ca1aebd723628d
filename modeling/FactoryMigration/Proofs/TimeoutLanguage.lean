import FactoryMigration.Duration
import FactoryMigration.Proofs.EnclosedText
import FactoryMigration.Proofs.KeySegments
import FactoryMigration.Proofs.NumeralText

set_option autoImplicit false

/-! # The language of timeouts

A timeout is a clock text `H:M:S`, or a number of days, a point and a clock text that stays below a
day. Its value is computed exactly, so a text has none if and only if it is not of this form or its
value does not stay below `2 ^ 64` (`Duration.ofTimeout?_eq_some_iff`). -/

namespace FactoryMigration

/-! ## Counts -/

namespace Text

/-- The text writes a number below the limit: perhaps a plus sign, and then one or more ASCII digits. -/
def WritesCount (limit : Nat) (cs : List Char) (n : Nat) : Prop :=
  ∃ digits, (cs = digits ∨ cs = '+' :: digits) ∧ digits ≠ [] ∧
    (∀ c ∈ digits, c.isDigit = true) ∧ n = Nat.ofDigitChars 10 digits 0 ∧ n < limit

theorem digits?_eq_some_iff {cs : List Char} {n : Nat} :
    digits? cs = some n ↔
      cs ≠ [] ∧ (∀ c ∈ cs, c.isDigit = true) ∧ n = Nat.ofDigitChars 10 cs 0 := by
  unfold digits?
  rw [Option.ite_none_right_eq_some, List.all_eq_true, ofDigits_eq_ofDigitChars, Option.some.injEq,
    and_assoc, eq_comm (a := n)]

theorem plus_not_isDigit {rest : List Char} (h : ∀ c ∈ '+' :: rest, c.isDigit = true) : False :=
  absurd (h '+' List.mem_cons_self) (by decide)

/-- **Counts.** A count is read exactly from the texts that write it. -/
theorem count?_eq_some_iff {limit n : Nat} {cs : List Char} :
    count? limit cs = some n ↔ WritesCount limit cs n := by
  unfold count?
  dsimp only
  rw [Option.filter_eq_some_iff, decide_eq_true_eq]
  constructor
  · rintro ⟨hread, hlimit⟩
    split at hread
    · rename_i rest
      obtain ⟨hne, hdigits, hn⟩ := digits?_eq_some_iff.mp hread
      exact ⟨rest, .inr rfl, hne, hdigits, hn, hlimit⟩
    · obtain ⟨hne, hdigits, hn⟩ := digits?_eq_some_iff.mp hread
      exact ⟨cs, .inl rfl, hne, hdigits, hn, hlimit⟩
  · rintro ⟨digits, rfl | rfl, hne, hdigits, hn, hlimit⟩
    · refine ⟨?_, hlimit⟩
      split
      · exact (plus_not_isDigit hdigits).elim
      · exact digits?_eq_some_iff.mpr ⟨hne, hdigits, hn⟩
    · exact ⟨digits?_eq_some_iff.mpr ⟨hne, hdigits, hn⟩, hlimit⟩

/-- A count has no other characters than digits and the sign. -/
theorem WritesCount.not_mem {limit n : Nat} {cs : List Char} (h : WritesCount limit cs n) {c : Char}
    (hdigit : c.isDigit = false) (hplus : c ≠ '+') : c ∉ cs := by
  obtain ⟨digits, hcs, -, hdigits, -⟩ := h
  have hnot : c ∉ digits := fun hmem => by
    rw [hdigits c hmem] at hdigit
    cases hdigit
  rcases hcs with rfl | rfl
  · exact hnot
  · simp [hplus, hnot]

/-! ## Cutting -/

theorem cutFirst_append {sep : Char} {before : List Char} (h : sep ∉ before) (after : List Char) :
    cutFirst sep (before ++ sep :: after) = some (before, after) := by
  induction before with
  | nil => rw [List.nil_append, cutFirst, if_pos rfl]
  | cons c before ih =>
    rw [List.mem_cons, not_or] at h
    rw [List.cons_append, cutFirst, if_neg (Ne.symm h.1), ih h.2, Option.map_some]

theorem cutFirst_eq_some_iff {sep : Char} {cs before after : List Char} :
    cutFirst sep cs = some (before, after) ↔ cs = before ++ sep :: after ∧ sep ∉ before := by
  constructor
  · intro h
    induction cs generalizing before with
    | nil => cases h
    | cons c rest ih =>
      rw [cutFirst] at h
      split at h
      · rename_i hc
        cases h
        exact ⟨congrArg (· :: after) hc, List.not_mem_nil⟩
      · rename_i hc
        obtain ⟨⟨front, back⟩, hcut, hpair⟩ := Option.map_eq_some_iff.mp h
        obtain ⟨rfl, rfl⟩ := Prod.mk.inj hpair
        obtain ⟨rfl, hfront⟩ := ih hcut
        exact ⟨rfl, by simp [hfront, Ne.symm hc]⟩
  · rintro ⟨rfl, h⟩
    exact cutFirst_append h after

theorem cutFirst_eq_none_iff {sep : Char} {cs : List Char} : cutFirst sep cs = none ↔ sep ∉ cs := by
  induction cs with
  | nil => simp [cutFirst]
  | cons c rest ih =>
    by_cases hc : c = sep
    · simp [cutFirst, hc]
    · simp [cutFirst, hc, ih, Ne.symm hc]

theorem segments_eq_three_iff {sep : Char} {cs first second third : List Char} :
    segments sep cs = [first, second, third] ↔
      cs = first ++ sep :: (second ++ sep :: third) ∧ sep ∉ first ∧ sep ∉ second ∧ sep ∉ third := by
  constructor
  · intro h
    have hpieces : ∀ piece ∈ [first, second, third], sep ∉ piece := fun piece hpiece =>
      not_mem_of_mem_segments (h ▸ hpiece)
    refine ⟨?_, hpieces _ (by simp), hpieces _ (by simp), hpieces _ (by simp)⟩
    rw [← join_segments sep cs, h]
    simp [join]
  · rintro ⟨rfl, hfirst, hsecond, hthird⟩
    rw [segments_append hfirst, segments_append hsecond, segments_of_not_mem hthird]

end Text

/-! ## Clocks and timeouts -/

namespace Duration

/-- A clock text `H:M:S` and its seconds. -/
inductive IsClock : List Char → Nat → Prop where
  | mk {hours minutes seconds : List Char} {h m s : Nat}
      (hhours : Text.WritesCount Text.limit64 hours h)
      (hminutes : Text.WritesCount Text.limit64 minutes m) (hm : m < 60)
      (hseconds : Text.WritesCount Text.limit64 seconds s) (hs : s < 60) :
      IsClock (hours ++ ':' :: (minutes ++ ':' :: seconds)) (h * 3600 + m * 60 + s)

/-- A text `H:M:S`, or `D.C` with such a text in `C` that is less than a day, and its seconds. -/
inductive IsTimeout : List Char → Nat → Prop where
  | clock {cs : List Char} {n : Nat} (h : IsClock cs n) : IsTimeout cs n
  | days {days clock : List Char} {d n : Nat} (hdays : Text.WritesCount Text.limit64 days d)
      (hclock : IsClock (Text.trim clock) n) (hday : n < 86400) :
      IsTimeout (days ++ '.' :: clock) (d * 86400 + n)

/-- A clock text has no other characters than digits, signs and colons. -/
theorem IsClock.not_mem {cs : List Char} {n : Nat} (h : IsClock cs n) {c : Char}
    (hdigit : c.isDigit = false) (hplus : c ≠ '+') (hcolon : c ≠ ':') : c ∉ cs := by
  obtain ⟨hhours, hminutes, -, hseconds, -⟩ := h
  simp [hcolon, hhours.not_mem hdigit hplus, hminutes.not_mem hdigit hplus,
    hseconds.not_mem hdigit hplus]

/-- The seconds of a clock text are read exactly, and only while they stay below the limit. -/
theorem ofClock?_eq_some_iff {cs : List Char} {n : Nat} :
    ofClock? cs = some n ↔ IsClock (Text.trim cs) n ∧ n < Text.limit64 := by
  unfold ofClock?
  constructor
  · intro h
    split at h
    · rename_i hours minutes seconds hsegments
      obtain ⟨hcs, -, -, -⟩ := Text.segments_eq_three_iff.mp hsegments
      obtain ⟨h', hhours, h⟩ := Option.bind_eq_some_iff.mp h
      obtain ⟨m, hminutes, h⟩ := Option.bind_eq_some_iff.mp h
      obtain ⟨s, hseconds, h⟩ := Option.bind_eq_some_iff.mp h
      obtain ⟨⟨hm, hs⟩, h⟩ := Option.ite_none_right_eq_some.mp h
      obtain ⟨hn, hlimit⟩ := Option.filter_eq_some_iff.mp h
      obtain rfl := Option.some.inj hn
      rw [hcs]
      exact ⟨.mk (Text.count?_eq_some_iff.mp hhours) (Text.count?_eq_some_iff.mp hminutes) hm
        (Text.count?_eq_some_iff.mp hseconds) hs, of_decide_eq_true hlimit⟩
    · cases h
  · rintro ⟨hclock, hlimit⟩
    generalize Text.trim cs = text at hclock
    obtain ⟨hhours, hminutes, hm, hseconds, hs⟩ := hclock
    rename_i hours minutes seconds h m s
    have hsegments : Text.segments ':' (hours ++ ':' :: (minutes ++ ':' :: seconds))
        = [hours, minutes, seconds] :=
      Text.segments_eq_three_iff.mpr ⟨rfl, hhours.not_mem (by decide) (by decide),
        hminutes.not_mem (by decide) (by decide), hseconds.not_mem (by decide) (by decide)⟩
    simp only [hsegments, Text.count?_eq_some_iff.mpr hhours, Text.count?_eq_some_iff.mpr hminutes,
      Text.count?_eq_some_iff.mpr hseconds, Option.bind_eq_bind, Option.bind_some]
    rw [if_pos ⟨hm, hs⟩]
    exact Option.filter_eq_some_iff.mpr ⟨rfl, decide_eq_true hlimit⟩

/-- **Timeouts.** A text has a timeout exactly if it is one without the blanks around it, and its value
stays below the limit; the value is that of the numbers in it, computed without a limit. -/
theorem ofTimeout?_eq_some_iff (cs : List Char) (n : Nat) :
    ofTimeout? cs = some n ↔ IsTimeout (Text.trim cs) n ∧ n < Text.limit64 := by
  unfold ofTimeout?
  have htrim : Text.trim (Text.trim cs) = Text.trim cs := Text.trim_trim cs
  generalize Text.trim cs = text at htrim
  constructor
  · intro h
    split at h
    · obtain ⟨hclock, hlimit⟩ := ofClock?_eq_some_iff.mp h
      rw [htrim] at hclock
      exact ⟨.clock hclock, hlimit⟩
    · rename_i days clock hcut
      obtain ⟨rfl, -⟩ := Text.cutFirst_eq_some_iff.mp hcut
      obtain ⟨d, hdays, h⟩ := Option.bind_eq_some_iff.mp h
      obtain ⟨s, hclock, h⟩ := Option.bind_eq_some_iff.mp h
      obtain ⟨hday, h⟩ := Option.ite_none_right_eq_some.mp h
      obtain ⟨hn, hlimit⟩ := Option.filter_eq_some_iff.mp h
      obtain rfl := Option.some.inj hn
      exact ⟨.days (Text.count?_eq_some_iff.mp hdays) (ofClock?_eq_some_iff.mp hclock).1 hday,
        of_decide_eq_true hlimit⟩
  · rintro ⟨htimeout, hlimit⟩
    cases htimeout with
    | clock hclock =>
      -- without a point the whole text is read as a clock
      have hpoint : '.' ∉ text := hclock.not_mem (by decide) (by decide) (by decide)
      rw [Text.cutFirst_eq_none_iff.mpr hpoint]
      exact ofClock?_eq_some_iff.mpr ⟨htrim.symm ▸ hclock, hlimit⟩
    | @days days clock d s hdays hclock hday =>
      -- the first point is the one behind the days
      have hpoint : '.' ∉ days := hdays.not_mem (by decide) (by decide)
      have hseconds : ofClock? clock = some s :=
        ofClock?_eq_some_iff.mpr ⟨hclock, Nat.lt_trans hday (by decide)⟩
      rw [Text.cutFirst_append hpoint]
      simp only [Text.count?_eq_some_iff.mpr hdays, hseconds, Option.bind_eq_bind, Option.bind_some]
      rw [if_pos (show s < secondsPerDay from hday)]
      exact Option.filter_eq_some_iff.mpr ⟨rfl, decide_eq_true hlimit⟩

end Duration

end FactoryMigration
