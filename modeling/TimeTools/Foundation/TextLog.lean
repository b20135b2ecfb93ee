import TimeTools.Foundation.Printf

/-!
# A log of records in text

A file that several programs append to: records, each a line of numbers with a comma
and a space between them, and headers of any other lines.  Every entry is appended
whole, in whatever order.  The records can be read back from the text
(`Format.read_text`), because a record starts with a digit or a sign and no line of a
header does.
-/

namespace TextLog

open CString

def isNewline (c : Char) : Bool := c == '\n'

def isComma (c : Char) : Bool := c == ','

/-- What the first character of a record can be. -/
def isNumeric (c : Char) : Bool := c == '-' || c.isDigit

theorem isNumeric_iff {c : Char} : isNumeric c = true ↔ c = '-' ∨ c.isDigit = true := by
  simp [isNumeric]

def OneLine (l : List Char) : Prop := ∀ c ∈ l, isNewline c = false

instance (l : List Char) : Decidable (OneLine l) :=
  List.decidableBAll (isNewline · = false) l

theorem oneLine_append {l l' : List Char} : OneLine (l ++ l') ↔ OneLine l ∧ OneLine l' :=
  List.forall_mem_append

theorem oneLine_cons {c : Char} {l : List Char} :
    OneLine (c :: l) ↔ isNewline c = false ∧ OneLine l := List.forall_mem_cons

theorem not_sep_of_isNumeric {c : Char} (h : isNumeric c = true) :
    isComma c = false ∧ isNewline c = false := by
  rcases isNumeric_iff.mp h with rfl | hdigit
  · exact ⟨rfl, rfl⟩
  · obtain ⟨hlo, -⟩ := digits_range hdigit
    refine ⟨Bool.eq_false_iff.mpr fun heq => ?_, Bool.eq_false_iff.mpr fun heq => ?_⟩
    · rw [eq_of_beq heq] at hlo
      exact absurd hlo (by decide)
    · rw [eq_of_beq heq] at hlo
      exact absurd hlo (by decide)

theorem oneLine_of_numeric {l : List Char} (h : ∀ c ∈ l, isNumeric c = true) : OneLine l :=
  fun c hc => (not_sep_of_isNumeric (h c hc)).2

/-- How a record is printed, and how it is read from its fields, which all but the first
come with a space. -/
structure Format (α : Type) where
  print : α → List Char × List (List Char)
  read : List (List Char) → Option α
  ne_nil : ∀ a, (print a).1 ≠ []
  numeric : ∀ a, ∀ f ∈ (print a).1 :: (print a).2, ∀ c ∈ f, isNumeric c = true
  read_print : ∀ a, read ((print a).1 :: (print a).2.map (' ' :: ·)) = some a

inductive Entry (α : Type)
  | header (ls : List (List Char))
  | record (a : α)

/-- No line of a header is broken or looks like a record. -/
structure HeaderLine (l : List Char) : Prop where
  oneLine : OneLine l
  not_numeric : ∀ c, l.head? = some c → isNumeric c = false

theorem headerLine_iff {l : List Char} :
    HeaderLine l ↔ OneLine l ∧ l.head?.all (!isNumeric ·) = true := by
  simp only [Option.all_eq_true, Bool.not_eq_true']
  exact ⟨fun h => ⟨h.oneLine, h.not_numeric⟩, fun h => ⟨h.1, h.2⟩⟩

instance (l : List Char) : Decidable (HeaderLine l) := decidable_of_iff' _ headerLine_iff

theorem HeaderLine.append {l l' : List Char} (hl : HeaderLine l) (hne : l ≠ [])
    (hl' : OneLine l') : HeaderLine (l ++ l') where
  oneLine := oneLine_append.mpr ⟨hl.oneLine, hl'⟩
  not_numeric c hc := by
    obtain ⟨d, ds, rfl⟩ := List.exists_cons_of_ne_nil hne
    exact hl.not_numeric c hc

def Entry.WellFormed {α : Type} : Entry α → Prop
  | .header ls => ∀ l ∈ ls, HeaderLine l
  | .record _ => True

def Entry.record? {α : Type} : Entry α → Option α
  | .header _ => none
  | .record a => some a

theorem filterMap_record {α : Type} (rs : List α) :
    (rs.map Entry.record).filterMap Entry.record? = rs := by
  rw [List.filterMap_map]
  exact List.filterMap_some

namespace Format

variable {α : Type} (F : Format α)

def line (a : α) : List Char := fields ',' ((F.print a).1 :: (F.print a).2)

def lines : Entry α → List (List Char)
  | .header ls => ls
  | .record a => [F.line a]

/-- The text of a log. -/
def text (es : List (Entry α)) : List Char := CString.lines '\n' (es.flatMap F.lines)

def readLine (l : List Char) : Option α :=
  if (l.head?.map isNumeric).getD false then F.read (tokens isComma l) else none

def readText (s : List Char) : List α := (tokens isNewline s).filterMap F.readLine

theorem text_append (es es' : List (Entry α)) : F.text (es ++ es') = F.text es ++ F.text es' := by
  rw [text, List.flatMap_append, lines_append]
  rfl

theorem oneLine_fields {fs : List (List Char)} (h : ∀ f ∈ fs, ∀ c ∈ f, isNumeric c = true) :
    OneLine (fields ',' fs) := by
  induction fs with
  | nil => exact fun _ hc => absurd hc List.not_mem_nil
  | cons f fs ih =>
    have hf : OneLine f := oneLine_of_numeric (h f List.mem_cons_self)
    cases fs with
    | nil => exact hf
    | cons g gs =>
      show OneLine (f ++ ',' :: ' ' :: fields ',' (g :: gs))
      rw [oneLine_append, oneLine_cons, oneLine_cons]
      exact ⟨hf, rfl, rfl, ih fun f' hf' => h f' (List.mem_cons_of_mem f hf')⟩

theorem head?_line (a : α) : (F.line a).head? = (F.print a).1.head? := by
  obtain ⟨c, cs, hcons⟩ := List.exists_cons_of_ne_nil (F.ne_nil a)
  rw [line, hcons]
  cases (F.print a).2 with
  | nil => rfl
  | cons f fs => rfl

theorem readLine_line (a : α) : F.readLine (F.line a) = some a := by
  obtain ⟨c, cs, hcons⟩ := List.exists_cons_of_ne_nil (F.ne_nil a)
  have hnumeric : isNumeric c = true :=
    F.numeric a _ List.mem_cons_self c (by rw [hcons]; exact List.mem_cons_self)
  rw [readLine, head?_line, hcons]
  simp only [List.head?_cons, Option.map_some, Option.getD_some, hnumeric, if_true]
  rw [line, tokens_fields rfl rfl (F.ne_nil a)
    fun f hf c hc => (not_sep_of_isNumeric (F.numeric a f hf c hc)).1]
  exact F.read_print a

theorem readLine_header {l : List Char} (h : HeaderLine l) : F.readLine l = none := by
  rw [readLine]
  cases hhead : l.head? with
  | none => rfl
  | some c => simp [h.not_numeric c hhead]

theorem filterMap_readLine {es : List (Entry α)} (h : ∀ e ∈ es, e.WellFormed) :
    (es.flatMap F.lines).filterMap F.readLine = es.filterMap Entry.record? := by
  induction es with
  | nil => rfl
  | cons e es ih =>
    rw [List.flatMap_cons, List.filterMap_append, List.filterMap_cons,
      ih fun e' he' => h e' (List.mem_cons_of_mem e he')]
    cases e with
    | header ls =>
      have hnone : ls.filterMap F.readLine = [] :=
        List.filterMap_eq_nil_iff.mpr fun l hl =>
          F.readLine_header (h (.header ls) List.mem_cons_self l hl)
      exact congrArg (· ++ _) hnone
    | record a =>
      show [F.line a].filterMap F.readLine ++ _ = a :: _
      simp [readLine_line]

/-- Empty lines, which the reader never sees, hold no record. -/
theorem filterMap_filter (ls : List (List Char)) :
    (ls.filter (!·.isEmpty)).filterMap F.readLine = ls.filterMap F.readLine := by
  induction ls with
  | nil => rfl
  | cons l ls ih =>
    cases l with
    | nil => exact ih
    | cons c cs =>
      rw [List.filter_cons_of_pos (by rfl), List.filterMap_cons, List.filterMap_cons, ih]

/-- The text of a log gives back its records in order, whatever headers are between them. -/
theorem read_text {es : List (Entry α)} (h : ∀ e ∈ es, e.WellFormed) :
    F.readText (F.text es) = es.filterMap Entry.record? := by
  have hlines : ∀ l ∈ es.flatMap F.lines, OneLine l := by
    intro l hl
    obtain ⟨e, he, hl⟩ := List.mem_flatMap.mp hl
    cases e with
    | header ls => exact (h _ he l hl).oneLine
    | record a =>
      obtain rfl : l = F.line a := List.mem_singleton.mp hl
      exact oneLine_fields (F.numeric a)
  rw [readText, text, tokens_lines rfl hlines, filterMap_filter, F.filterMap_readLine h]

/-! ## A log as it grows -/

/-- The file has these records, and headers. -/
def IsLog (rs : List α) (file : List Char) : Prop :=
  ∃ es, file = F.text es ∧ (∀ e ∈ es, e.WellFormed) ∧ es.filterMap Entry.record? = rs

theorem isLog_nil : F.IsLog [] [] := ⟨[], rfl, by simp, rfl⟩

variable {F} {rs : List α} {file : List Char}

theorem IsLog.readText (h : F.IsLog rs file) : F.readText file = rs := by
  obtain ⟨es, hfile, hwell, hrecords⟩ := h
  rw [hfile, F.read_text hwell, hrecords]

theorem IsLog.records (h : F.IsLog rs file) (rs' : List α) :
    F.IsLog (rs ++ rs') (file ++ F.text (rs'.map .record)) := by
  obtain ⟨es, hfile, hwell, hrecords⟩ := h
  refine ⟨es ++ rs'.map .record, ?_, ?_, ?_⟩
  · rw [hfile, F.text_append]
  · exact List.forall_mem_append.mpr ⟨hwell, List.forall_mem_map.mpr fun _ _ => trivial⟩
  · rw [List.filterMap_append, hrecords, filterMap_record]

theorem IsLog.header (h : F.IsLog rs file) {ls : List (List Char)}
    (hls : ∀ l ∈ ls, HeaderLine l) : F.IsLog rs (file ++ F.text [.header ls]) := by
  obtain ⟨es, hfile, hwell, hrecords⟩ := h
  refine ⟨es ++ [.header ls], ?_, ?_, ?_⟩
  · rw [hfile, F.text_append]
  · exact List.forall_mem_append.mpr ⟨hwell, List.forall_mem_singleton.mpr hls⟩
  · rw [List.filterMap_append, hrecords]
    exact List.append_nil rs

end Format

end TextLog
