import Mathlib.Data.List.DropRight
/-!
# Lines of text

Python's `str.splitlines` and `str.strip` on characters. `unlines` ends each
line with a newline, as a file written line by line is; the lines are read back
from it (`splitLines_unlines`), also after the text was stripped
(`splitLines_strip`).
-/
namespace PyLib

/-- Where `str.splitlines` ends a line. -/
def isLineBreak (c : Char) : Bool := c.toNat ∈ [10, 11, 12, 13, 28, 29, 30, 133, 8232, 8233]

/-- `c.isspace()` -/
def isSpace (c : Char) : Bool :=
  c.toNat ∈ [9, 10, 11, 12, 13, 28, 29, 30, 31, 32, 133, 160, 5760, 8232, 8233, 8239, 8287, 12288] ||
    (8192 ≤ c.toNat && c.toNat ≤ 8202)

/-- `text.splitlines()` -/
def splitLines : List Char → List (List Char)
  | [] => []
  | c :: cs =>
    -- `\r\n` ends one line
    if c = '\r' ∧ cs.head? = some '\n' then splitLines cs
    else if isLineBreak c then [] :: splitLines cs
    else
      match splitLines cs with
      | [] => [[c]]
      | l :: ls => (c :: l) :: ls

/-- `text.strip()` -/
def strip (cs : List Char) : List Char := (cs.dropWhile isSpace).rdropWhile isSpace

/-- The lines `ls`, each with its newline. -/
def unlines (ls : List (List Char)) : List Char := ls.flatMap (· ++ ['\n'])

/-- A line has no boundary inside. -/
def IsLine (l : List Char) : Prop := ∀ c ∈ l, isLineBreak c = false

theorem unlines_append (ls ls' : List (List Char)) : unlines (ls ++ ls') = unlines ls ++ unlines ls' :=
  List.flatMap_append

/-- Lines joined by newlines, and one more. -/
theorem intercalate_newline {ls : List (List Char)} (h : ls ≠ []) :
    List.intercalate ['\n'] ls ++ ['\n'] = unlines ls := by
  induction ls with
  | nil => exact absurd rfl h
  | cons l ls ih =>
    cases ls with
    | nil => simp [unlines]
    | cons l' ls =>
      have hnext := ih (List.cons_ne_nil l' ls)
      rw [List.intercalate_cons_cons, List.append_assoc, hnext]
      simp [unlines]

theorem splitLines_newline (cs : List Char) : splitLines ('\n' :: cs) = [] :: splitLines cs := by
  rw [splitLines, if_neg (by simp), if_pos (by decide)]

theorem splitLines_char {c : Char} (hc : isLineBreak c = false) (cs : List Char) :
    splitLines (c :: cs) = match splitLines cs with
      | [] => [[c]]
      | l :: ls => (c :: l) :: ls := by
  have hr : ¬ (c = '\r' ∧ cs.head? = some '\n') := by
    rintro ⟨rfl, -⟩
    exact absurd hc (by decide)
  rw [splitLines, if_neg hr, if_neg (by simp [hc])]

/-- The first line of a text. -/
theorem splitLines_line {l : List Char} (hl : IsLine l) (cs : List Char) :
    splitLines (l ++ '\n' :: cs) = l :: splitLines cs := by
  induction l with
  | nil => exact splitLines_newline cs
  | cons c l ih =>
    obtain ⟨hc, hl⟩ := List.forall_mem_cons.1 hl
    rw [List.cons_append, splitLines_char hc, ih hl]

/-- A last line without a newline. -/
theorem splitLines_last {l : List Char} (hl : IsLine l) (hne : l ≠ []) : splitLines l = [l] := by
  induction l with
  | nil => exact absurd rfl hne
  | cons c l ih =>
    obtain ⟨hc, hl⟩ := List.forall_mem_cons.1 hl
    cases l with
    | nil => rw [splitLines_char hc, splitLines]
    | cons d l => rw [splitLines_char hc, ih hl (List.cons_ne_nil d l)]

theorem splitLines_unlines_append {ls : List (List Char)} (hls : ∀ l ∈ ls, IsLine l) (cs : List Char) :
    splitLines (unlines ls ++ cs) = ls ++ splitLines cs := by
  induction ls with
  | nil => rfl
  | cons l ls ih =>
    obtain ⟨hl, hls⟩ := List.forall_mem_cons.1 hls
    rw [unlines, List.flatMap_cons, ← unlines, List.append_assoc, List.append_assoc, List.singleton_append,
      splitLines_line hl, ih hls, List.cons_append]

theorem splitLines_unlines {ls : List (List Char)} (hls : ∀ l ∈ ls, IsLine l) : splitLines (unlines ls) = ls := by
  have h := splitLines_unlines_append hls []
  rwa [List.append_nil, splitLines, List.append_nil] at h

/-- A line with no space at either end, and with something in it. -/
structure Trim (l : List Char) : Prop where
  line : IsLine l
  ne_nil : l ≠ []
  head : ∀ c ∈ l.head?, isSpace c = false
  last : ∀ c ∈ l.getLast?, isSpace c = false

theorem strip_trim {l : List Char} (hl : Trim l) : strip l = l := by
  obtain ⟨c, l', rfl⟩ := List.exists_cons_of_ne_nil hl.ne_nil
  have hc : isSpace c = false := hl.head c rfl
  obtain ⟨init, d, hd⟩ := (List.eq_nil_or_concat' (c :: l')).resolve_left hl.ne_nil
  have hlast : isSpace d = false := hl.last d (by rw [hd]; simp)
  rw [strip, List.dropWhile_cons_of_neg (by simp [hc]), hd, List.rdropWhile_concat_neg _ _ _ (by simp [hlast])]

theorem dropWhile_unlines {l : List Char} (hl : Trim l) (ls : List (List Char)) :
    (unlines (l :: ls)).dropWhile isSpace = unlines (l :: ls) := by
  obtain ⟨c, l', rfl⟩ := List.exists_cons_of_ne_nil hl.ne_nil
  have hc : isSpace c = false := hl.head c rfl
  rw [unlines, List.flatMap_cons, List.cons_append, List.cons_append, List.dropWhile_cons_of_neg (by simp [hc])]

/-- Stripping takes the last newline away. -/
theorem strip_unlines {ls : List (List Char)} {l : List Char} (hls : ∀ x ∈ ls, Trim x) (hl : Trim l) :
    strip (unlines (ls ++ [l])) = unlines ls ++ l := by
  have hfront : (unlines (ls ++ [l])).dropWhile isSpace = unlines (ls ++ [l]) := by
    cases ls with
    | nil => exact dropWhile_unlines hl []
    | cons x xs => exact dropWhile_unlines (hls x List.mem_cons_self) (xs ++ [l])
  have hlast : unlines (ls ++ [l]) = (unlines ls ++ l) ++ ['\n'] := by
    rw [unlines_append, List.append_assoc]
    simp [unlines]
  obtain ⟨l', c, rfl⟩ := (List.eq_nil_or_concat' l).resolve_left hl.ne_nil
  have hc : isSpace c = false := hl.last c (by simp)
  rw [strip, hfront, hlast, List.rdropWhile_concat_pos _ _ _ (by decide), ← List.append_assoc,
    List.rdropWhile_concat_neg _ _ _ (by simp [hc])]

/-- The lines of a stripped file. -/
theorem splitLines_strip {ls : List (List Char)} (hls : ∀ l ∈ ls, Trim l) : splitLines (strip (unlines ls)) = ls := by
  rcases List.eq_nil_or_concat' ls with rfl | ⟨ls, l, rfl⟩
  · rfl
  · have hl : Trim l := hls l (by simp)
    have hinit : ∀ x ∈ ls, Trim x := fun x hx => hls x (List.mem_append_left _ hx)
    rw [strip_unlines hinit hl, splitLines_unlines_append fun x hx => (hinit x hx).line,
      splitLines_last hl.line hl.ne_nil]

end PyLib
