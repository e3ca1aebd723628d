set_option autoImplicit false

/-! # Cutting and joining texts

A text is cut at every separator (`segments`), at the first one (`cutFirst`), or into lines. Joining
the segments again gives the text back (`join_segments`). -/

namespace FactoryMigration.Text

/-- The pieces between the separators; a text without one is a single piece. -/
def segments (sep : Char) : List Char → List (List Char)
  | [] => [[]]
  | c :: rest =>
    if c = sep then [] :: segments sep rest
    else match segments sep rest with
      | [] => [[c]]
      | piece :: pieces => (c :: piece) :: pieces

theorem segments_ne_nil (sep : Char) (cs : List Char) : segments sep cs ≠ [] := by
  induction cs with
  | nil => simp [segments]
  | cons c rest ih =>
    by_cases h : c = sep
    · simp [segments, h]
    · cases hs : segments sep rest <;> simp [segments, h, hs]

/-- The pieces with `sep` between neighbours. -/
def join (sep : List Char) : List (List Char) → List Char
  | [] => []
  | [piece] => piece
  | piece :: pieces => piece ++ sep ++ join sep pieces

theorem join_segments (sep : Char) (cs : List Char) : join [sep] (segments sep cs) = cs := by
  induction cs with
  | nil => rfl
  | cons c rest ih =>
    by_cases h : c = sep
    · subst h
      cases hs : segments c rest with
      | nil => exact absurd hs (segments_ne_nil _ _)
      | cons p ps => rw [hs] at ih; simp [segments, hs, join, ih]
    · cases hs : segments sep rest with
      | nil => exact absurd hs (segments_ne_nil _ _)
      | cons p ps =>
        rw [hs] at ih
        cases ps <;> simp_all [segments, join]

/-- What stands before and after the first separator. -/
def cutFirst (sep : Char) : List Char → Option (List Char × List Char)
  | [] => none
  | c :: rest =>
    if c = sep then some ([], rest)
    else (cutFirst sep rest).map fun cut => (c :: cut.1, cut.2)

/-- What remains of `cs` after a given beginning. -/
def afterStart : List Char → List Char → Option (List Char)
  | [], cs => some cs
  | _ :: _, [] => none
  | s :: start, c :: cs => if s = c then afterStart start cs else none

theorem afterStart_eq_some_iff {start cs rest : List Char} :
    afterStart start cs = some rest ↔ cs = start ++ rest := by
  induction start generalizing cs with
  | nil => simp [afterStart, eq_comm]
  | cons s start ih =>
    cases cs with
    | nil => simp [afterStart]
    | cons c cs =>
      by_cases h : s = c
      · subst h; simp [afterStart, ih]
      · simp [afterStart, h, Ne.symm h]

/-- Joins texts with a separator between neighbours. -/
def joinWith (sep : String) : List String → String
  | [] => ""
  | [s] => s
  | s :: rest => s ++ sep ++ joinWith sep rest

/-- A line without the carriage return before its end. -/
def dropReturn (line : List Char) : List Char :=
  match line.reverse with
  | '\r' :: kept => kept.reverse
  | _ => line

/-- The lines of a text: each ends at a line feed, which may follow a carriage return; a text that
ends in a line feed has no further empty line. -/
def lines (cs : List Char) : List (List Char) :=
  let pieces := segments '\n' cs
  match pieces.reverse with
  | [] :: ended => (ended.map dropReturn).reverse
  | last :: ended => last :: ended.map dropReturn |>.reverse
  | [] => []

end FactoryMigration.Text
