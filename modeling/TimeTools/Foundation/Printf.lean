import TimeTools.Foundation.CString

/-!
# Numbers in text

What `printf` writes for a number and what `strtol`, `strtoul` and `atoi` make of it.
A number that fits its type comes back whatever it is padded with and whatever spaces
stand before it (`strtol_formatInt`, `strtoul_formatPadded`).  Lines and fields come
back too, as long as no field has the separator in it (`tokens_lines`, `tokens_fields`).
-/

namespace CString

/-- `%d` and `%ld`. -/
def formatInt (n : Int) : List Char :=
  if n < 0 then '-' :: Nat.toDigits 10 n.natAbs else Nat.toDigits 10 n.natAbs

/-- `%0lu` with a width. -/
def formatPadded (width n : Nat) : List Char :=
  List.replicate (width - (Nat.toDigits 10 n).length) '0' ++ Nat.toDigits 10 n

/-- `%0d` with a width. -/
def formatInt0 (width : Nat) (n : Int) : List Char :=
  if n < 0 then '-' :: formatPadded (width - 1) n.natAbs else formatPadded width n.natAbs

/-- `strtoul` in base 10.  A minus sign negates the word. -/
def strtoul (s : List Char) : UInt64 :=
  let value (cs : List Char) : UInt64 := .ofNat (min (2 ^ 64 - 1) (leadingValue cs))
  match s.dropWhile isSpace with
  | '-' :: cs => -value cs
  | '+' :: cs => value cs
  | cs => value cs

/-! ## Digits -/

variable {s ds : List Char} {n : Nat}

theorem digits_range {c : Char} (h : c.isDigit = true) : 48 ≤ c.toNat ∧ c.toNat ≤ 57 :=
  Char.isDigit_iff_toNat.mp h

theorem isSpace_of_isDigit {c : Char} (h : c.isDigit = true) : isSpace c = false := by
  obtain ⟨hlo, hhi⟩ := digits_range h
  simp only [isSpace, Bool.or_eq_false_iff, decide_eq_false_iff_not, Bool.and_eq_false_iff]
  omega

theorem isDigit_toDigits : ∀ c ∈ Nat.toDigits 10 n, c.isDigit = true :=
  fun _ hc => Nat.isDigit_of_mem_toDigits (by decide) (by decide) hc

theorem formatPadded_ne_nil (width n : Nat) : formatPadded width n ≠ [] :=
  List.append_ne_nil_of_right_ne_nil _ Nat.toDigits_ne_nil

theorem isDigit_formatPadded {width : Nat} : ∀ c ∈ formatPadded width n, c.isDigit = true := by
  intro c hc
  rcases List.mem_append.mp hc with hc | hc
  · rw [List.eq_of_mem_replicate hc]
    rfl
  · exact isDigit_toDigits c hc

theorem ofDigitChars_formatPadded (width n : Nat) :
    Nat.ofDigitChars 10 (formatPadded width n) 0 = n := by
  rw [formatPadded, Nat.ofDigitChars_append, Nat.ofDigitChars_replicate_zero, Nat.mul_zero,
    Nat.ofDigitChars_ten_toDigits]

theorem leadingValue_of_digits (h : ∀ c ∈ ds, c.isDigit = true) :
    leadingValue ds = Nat.ofDigitChars 10 ds 0 := by
  rw [leadingValue, List.takeWhile_eq_self_iff.mpr h]

/-- A sign and digits: what a printed number looks like. -/
theorem mem_formatInt {n : Int} {c : Char} (hc : c ∈ formatInt n) :
    c = '-' ∨ c.isDigit = true := by
  rw [formatInt] at hc
  split at hc
  · rcases List.mem_cons.mp hc with rfl | hc
    · exact .inl rfl
    · exact .inr (isDigit_toDigits c hc)
  · exact .inr (isDigit_toDigits c hc)

theorem formatInt_ne_nil (n : Int) : formatInt n ≠ [] := by
  rw [formatInt]
  split
  · exact List.cons_ne_nil _ _
  · exact Nat.toDigits_ne_nil

theorem mem_formatInt0 {width : Nat} {n : Int} {c : Char} (hc : c ∈ formatInt0 width n) :
    c = '-' ∨ c.isDigit = true := by
  rw [formatInt0] at hc
  split at hc
  · rcases List.mem_cons.mp hc with rfl | hc
    · exact .inl rfl
    · exact .inr (isDigit_formatPadded c hc)
  · exact .inr (isDigit_formatPadded c hc)

/-! ## Reading back -/

theorem dropWhile_isSpace_of_digits (h : ∀ c ∈ ds, c.isDigit = true) :
    ds.dropWhile isSpace = ds := by
  cases ds with
  | nil => rfl
  | cons c cs =>
    rw [List.dropWhile_cons_of_neg]
    rw [isSpace_of_isDigit (h c List.mem_cons_self)]
    decide

theorem strtol_space (s : List Char) : strtol (' ' :: s) = strtol s := rfl

theorem atoi_space (s : List Char) : atoi (' ' :: s) = atoi s := rfl

theorem strtoul_space (s : List Char) : strtoul (' ' :: s) = strtoul s := rfl

theorem strtol_formatInt {n : Int} (hlo : -2 ^ 63 ≤ n) (hhi : n < 2 ^ 63) :
    strtol (formatInt n) = .ofInt n := by
  rw [formatInt]
  split
  · rename_i hneg
    have hvalue : leadingValue (Nat.toDigits 10 n.natAbs) = n.natAbs := by
      rw [leadingValue_of_digits isDigit_toDigits, Nat.ofDigitChars_ten_toDigits]
    rw [strtol, List.dropWhile_cons_of_neg (by decide)]
    show Int64.ofInt (max (-2 ^ 63) (min (2 ^ 63 - 1) (-leadingValue _))) = _
    rw [hvalue]
    congr 1
    omega
  · rw [strtol_of_digits Nat.toDigits_ne_nil isDigit_toDigits, Nat.ofDigitChars_ten_toDigits]
    congr 1
    omega

theorem atoi_formatInt {n : Int} (hlo : -2 ^ 31 ≤ n) (hhi : n < 2 ^ 31) :
    atoi (formatInt n) = .ofInt n := by
  rw [atoi, strtol_formatInt (by omega) (by omega), ← Int32.toInt_inj, Int64.toInt_toInt32,
    Int64.toInt_ofInt_of_le (by omega) (by omega), Int32.toInt_ofInt]

theorem strtoul_of_digits (hne : ds ≠ []) (h : ∀ c ∈ ds, c.isDigit = true) :
    strtoul ds = .ofNat (min (2 ^ 64 - 1) (Nat.ofDigitChars 10 ds 0)) := by
  obtain ⟨c, cs, rfl⟩ := List.exists_cons_of_ne_nil hne
  obtain ⟨hlo, -⟩ := digits_range (h c List.mem_cons_self)
  rw [strtoul, dropWhile_isSpace_of_digits h]
  split
  · rename_i heq
    obtain ⟨rfl, -⟩ := List.cons.inj heq
    exact absurd hlo (by decide)
  · rename_i heq
    obtain ⟨rfl, -⟩ := List.cons.inj heq
    exact absurd hlo (by decide)
  · show UInt64.ofNat (min _ (leadingValue _)) = _
    rw [leadingValue_of_digits h]

theorem strtoul_formatPadded {width n : Nat} (h : n < 2 ^ 64) :
    strtoul (formatPadded width n) = .ofNat n := by
  rw [strtoul_of_digits (formatPadded_ne_nil width n) isDigit_formatPadded,
    ofDigitChars_formatPadded, Nat.min_eq_right (by omega)]

/-! ## Lines and fields -/

/-- Lines, each with its end. -/
def lines (eol : Char) (ls : List (List Char)) : List Char := ls.flatMap (· ++ [eol])

/-- Fields with a separator and a space between them. -/
def fields (sep : Char) : List (List Char) → List Char
  | [] => []
  | [f] => f
  | f :: fs => f ++ sep :: ' ' :: fields sep fs

theorem lines_append (eol : Char) (ls ls' : List (List Char)) :
    lines eol (ls ++ ls') = lines eol ls ++ lines eol ls' := List.flatMap_append

theorem tokens_lines {sep : Char → Bool} {eol : Char} (heol : sep eol = true)
    {ls : List (List Char)} (h : ∀ l ∈ ls, ∀ c ∈ l, sep c = false) :
    tokens sep (lines eol ls) = ls.filter (!·.isEmpty) := by
  induction ls with
  | nil => rfl
  | cons l ls ih =>
    have htail := ih fun l' hl' => h l' (List.mem_cons_of_mem l hl')
    have hl : lines eol (l :: ls) = l ++ eol :: lines eol ls := by
      simp [lines]
    rw [hl, List.filter_cons]
    by_cases hempty : l = []
    · rw [hempty, List.nil_append, tokens_cons_of_sep heol, htail]
      rfl
    · rw [tokens_append hempty (h l List.mem_cons_self) heol, htail]
      simp [hempty]

/-- The first field comes back as it is and the others with the space before them. -/
theorem tokens_fields {isSep : Char → Bool} {sep : Char} (hsep : isSep sep = true)
    (hspace : isSep ' ' = false) {f : List Char} {fs : List (List Char)} (hf : f ≠ [])
    (h : ∀ g ∈ f :: fs, ∀ c ∈ g, isSep c = false) :
    tokens isSep (fields sep (f :: fs)) = f :: fs.map (' ' :: ·) := by
  induction fs generalizing f with
  | nil => exact tokens_singleton hf (h f List.mem_cons_self)
  | cons g gs ih =>
    have hg : ∀ c ∈ ' ' :: g, isSep c = false := by
      intro c hc
      rcases List.mem_cons.mp hc with rfl | hc
      · exact hspace
      · exact h g (by simp) c hc
    have htail : tokens isSep (fields sep ((' ' :: g) :: gs)) =
        (' ' :: g) :: gs.map (' ' :: ·) := by
      refine ih (List.cons_ne_nil _ _) fun g' hg' => ?_
      rcases List.mem_cons.mp hg' with rfl | hg'
      · exact hg
      · exact h g' (by simp [hg'])
    have hcons : ' ' :: fields sep (g :: gs) = fields sep ((' ' :: g) :: gs) := by
      cases gs <;> rfl
    rw [fields, tokens_append hf (h f List.mem_cons_self) hsep, hcons, htail]
    · rfl
    · exact List.cons_ne_nil _ _

end CString
