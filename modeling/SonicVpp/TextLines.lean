/-
# Words on lines

A text is a list of lines, a line is an indentation and words, and a word is what has no
blanks in it.  Reading takes a text apart at the newlines, and each line at the blanks.
-/
import Mathlib

namespace TextLines

/-! ## Writing -/

/-- Words with a blank between them. -/
def unwords : List String → String
  | [] => ""
  | [w] => w
  | w :: ws => w ++ " " ++ unwords ws

theorem unwords_cons_cons (w w' : String) (ws : List String) :
    unwords (w :: w' :: ws) = w ++ " " ++ unwords (w' :: ws) := rfl

/-- A line of a text. -/
structure Line where
  indent : String
  words : List String

/-- A line as it is written. -/
def Line.text (l : Line) : String := l.indent ++ unwords l.words ++ "\n"

/-- Lines, one after the other. -/
def textOf : List Line → String
  | [] => ""
  | l :: ls => l.text ++ textOf ls

/-- What can be read back as a word. -/
def IsWord (w : String) : Prop := w ≠ "" ∧ ∀ c ∈ w.toList, c.isWhitespace = false

/-- A word can be told by looking at its letters. -/
theorem isWord_of_all {w : String} (hne : w ≠ "")
    (h : w.toList.all (fun c => !c.isWhitespace) = true) : IsWord w := by
  refine ⟨hne, ?_⟩
  intro c hc
  simpa using List.all_eq_true.1 h c hc

/-- Nothing but blanks. -/
def Blank (s : String) : Prop := ∀ c ∈ s.toList, c = ' '

/-- White space inside a line. -/
def White (s : String) : Prop := ∀ c ∈ s.toList, c.isWhitespace = true ∧ c ≠ '\n'

theorem Blank.white {s : String} (h : Blank s) : White s := by
  intro c hc
  rw [h c hc]
  decide

/-- What can be read back as a line. -/
structure Line.Readable (l : Line) : Prop where
  indent : Blank l.indent
  words : ∀ w ∈ l.words, IsWord w

/-! ## Reading -/

/-- The words of a line. -/
def wordsOf (line : List Char) : List String :=
  ((line.splitOnP Char.isWhitespace).filter (· ≠ [])).map String.ofList

/-- The words of the lines of a text. -/
def readLines (text : String) : List (List String) :=
  (text.toList.splitOnP (· == '\n')).map wordsOf

/-! ## Round trip -/

theorem textOf_append (ls ls' : List Line) : textOf (ls ++ ls') = textOf ls ++ textOf ls' := by
  induction ls with
  | nil => simp [textOf]
  | cons l ls ih => rw [List.cons_append, textOf, textOf, ih, String.append_assoc]

/-- Blanks at the start of a line do not count. -/
theorem wordsOf_blank {c : Char} (hc : c.isWhitespace = true) (line : List Char) :
    wordsOf (c :: line) = wordsOf line := by
  unfold wordsOf
  rw [List.splitOnP_cons_eq_if_modifyHead, if_pos hc]
  rfl

theorem wordsOf_white {indent : List Char} (h : ∀ c ∈ indent, c.isWhitespace = true)
    (line : List Char) : wordsOf (indent ++ line) = wordsOf line := by
  induction indent with
  | nil => rfl
  | cons c indent ih =>
    rw [List.cons_append, wordsOf_blank (h c List.mem_cons_self)]
    exact ih fun c hc => h c (List.mem_cons_of_mem _ hc)

/-- A word, a blank, and more. -/
theorem wordsOf_cons {w : String} (hw : IsWord w) (line : List Char) :
    wordsOf (w.toList ++ ' ' :: line) = w :: wordsOf line := by
  have hne : w.toList ≠ [] := by simpa using hw.1
  unfold wordsOf
  rw [List.splitOnP_append_cons_of_forall_mem hw.2 ' ' (by decide),
    List.filter_cons_of_pos (by simpa using hw.1), List.map_cons, String.ofList_toList]

theorem wordsOf_single {w : String} (hw : IsWord w) : wordsOf w.toList = [w] := by
  unfold wordsOf
  rw [List.splitOnP_eq_singleton hw.2, List.filter_cons_of_pos (by simpa using hw.1)]
  simp

/-- **The words of a line are read back.** -/
theorem wordsOf_unwords : ∀ ws : List String, (∀ w ∈ ws, IsWord w) →
    wordsOf (unwords ws).toList = ws
  | [], _ => rfl
  | [w], h => wordsOf_single (h w List.mem_cons_self)
  | w :: w' :: ws, h => by
    have hrest := wordsOf_unwords (w' :: ws) fun x hx => h x (List.mem_cons_of_mem _ hx)
    have hspace : " ".toList = [' '] := rfl
    rw [unwords_cons_cons, String.toList_append, String.toList_append, hspace,
      List.append_assoc, List.singleton_append, wordsOf_cons (h w List.mem_cons_self), hrest]

theorem newline_not_mem_word {w : String} (hw : IsWord w) :
    ∀ c ∈ w.toList, (c == '\n') = false := by
  intro c hc
  rw [beq_eq_false_iff_ne]
  rintro rfl
  exact absurd (hw.2 _ hc) (by decide)

/-- There is no newline in words with blanks between them. -/
theorem newline_not_mem : ∀ ws : List String, (∀ w ∈ ws, IsWord w) →
    ∀ c ∈ (unwords ws).toList, (c == '\n') = false
  | [], _, c, hc => by simp [unwords] at hc
  | [w], h, c, hc => newline_not_mem_word (h w List.mem_cons_self) c hc
  | w :: w' :: ws, h, c, hc => by
    rw [unwords_cons_cons, String.toList_append, String.toList_append, List.mem_append,
      List.mem_append] at hc
    rcases hc with (hc | hc) | hc
    · exact newline_not_mem_word (h w List.mem_cons_self) c hc
    · have hspace : c ∈ [' '] := hc
      rw [List.mem_singleton.1 hspace]
      rfl
    · exact newline_not_mem (w' :: ws) (fun x hx => h x (List.mem_cons_of_mem _ hx)) c hc

/-- **The lines of a text are read back**, and an empty one at the end, whatever white space they
are indented with. -/
theorem readLines_textOf_white {ls : List Line}
    (h : ∀ l ∈ ls, White l.indent ∧ ∀ w ∈ l.words, IsWord w) :
    readLines (textOf ls) = ls.map Line.words ++ [[]] := by
  induction ls with
  | nil => rfl
  | cons l ls ih =>
    obtain ⟨hindent, hwords⟩ := h l List.mem_cons_self
    have hline : ∀ c ∈ l.indent.toList ++ (unwords l.words).toList, (c == '\n') = false := by
      intro c hc
      rcases List.mem_append.1 hc with hc | hc
      · exact beq_eq_false_iff_ne.2 (hindent c hc).2
      · exact newline_not_mem l.words hwords c hc
    have hnewline : "\n".toList = ['\n'] := rfl
    have hrest := ih fun l hl => h l (List.mem_cons_of_mem _ hl)
    unfold readLines at hrest ⊢
    rw [textOf, Line.text, String.toList_append, String.toList_append, String.toList_append,
      hnewline, List.append_assoc _ ['\n'], List.singleton_append,
      List.splitOnP_append_cons_of_forall_mem hline '\n' (by decide), List.map_cons, hrest,
      wordsOf_white fun c hc => (hindent c hc).1, wordsOf_unwords l.words hwords]
    rfl

/-- The lines of a readable text are read back. -/
theorem readLines_textOf {ls : List Line} (h : ∀ l ∈ ls, l.Readable) :
    readLines (textOf ls) = ls.map Line.words ++ [[]] := by
  apply readLines_textOf_white
  intro l hl
  exact ⟨(h l hl).indent.white, (h l hl).words⟩

end TextLines
