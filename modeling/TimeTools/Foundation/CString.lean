import Mathlib.Algebra.Order.Ring.Int
import Mathlib.Data.List.TakeWhile

/-!
# `strtok` and `atoi`

A string is the list of its characters.  The calls of `strtok` on a string return its
tokens, the stretches between separators that are not empty (`strtok_eq`).  `atoi` reads
the digits at the front of a string and makes zero of what has none; on a string of
digits it is their value (`atoi_of_digits`).
-/

namespace CString

/-- The stretches of `s` without a separator, the empty ones left out. -/
def tokens (sep : Char → Bool) (s : List Char) : List (List Char) :=
  (s.splitOnP sep).filter (!·.isEmpty)

/-- A call of `strtok`, with what is left of the string: the token, and what follows the
separator that ends it. -/
def strtok (sep : Char → Bool) (s : List Char) : Option (List Char × List Char) :=
  match s.dropWhile sep with
  | [] => none
  | c :: cs => some ((c :: cs).takeWhile (!sep ·), ((c :: cs).dropWhile (!sep ·)).drop 1)

/-- `isspace` in the C locale. -/
def isSpace (c : Char) : Bool := c.toNat = 32 || (9 ≤ c.toNat && c.toNat ≤ 13)

/-- The value of the digits at the front of the string. -/
def leadingValue (s : List Char) : Nat := Nat.ofDigitChars 10 (s.takeWhile Char.isDigit) 0

/-- `strtol` in base 10, whose result is clamped to a `long`. -/
def strtol (s : List Char) : Int64 :=
  let n : Int := match s.dropWhile isSpace with
    | '-' :: cs => -leadingValue cs
    | '+' :: cs => leadingValue cs
    | cs => leadingValue cs
  .ofInt (max (-2 ^ 63) (min (2 ^ 63 - 1) n))

def atoi (s : List Char) : Int32 := (strtol s).toInt32

variable {sep : Char → Bool} {s : List Char}

@[simp] theorem tokens_nil (sep : Char → Bool) : tokens sep [] = [] := rfl

theorem tokens_cons_of_sep {c : Char} (hc : sep c = true) (s : List Char) :
    tokens sep (c :: s) = tokens sep s := by
  rw [tokens, List.splitOnP_cons_eq_if_modifyHead, if_pos hc, List.filter_cons]
  rfl

theorem tokens_dropWhile (sep : Char → Bool) (s : List Char) :
    tokens sep (s.dropWhile sep) = tokens sep s := by
  induction s with
  | nil => rfl
  | cons c s ih =>
    by_cases hc : sep c = true
    · rw [List.dropWhile_cons_of_pos hc, ih, tokens_cons_of_sep hc]
    · rw [List.dropWhile_cons_of_neg hc]

theorem tokens_singleton {t : List Char} (ht : t ≠ []) (h : ∀ c ∈ t, sep c = false) :
    tokens sep t = [t] := by
  rw [tokens, List.splitOnP_eq_singleton h]
  simp [ht]

theorem tokens_append {t : List Char} {c : Char} (ht : t ≠ []) (h : ∀ c ∈ t, sep c = false)
    (hc : sep c = true) (s : List Char) : tokens sep (t ++ c :: s) = t :: tokens sep s := by
  rw [tokens, List.splitOnP_append_cons t s hc, List.filter_append]
  exact congrArg (· ++ _) (tokens_singleton ht h)

/-- The calls of `strtok` on a string return its tokens in order. -/
theorem strtok_eq (sep : Char → Bool) (s : List Char) :
    (strtok sep s = none ∧ tokens sep s = []) ∨
      ∃ t rest, strtok sep s = some (t, rest) ∧ tokens sep s = t :: tokens sep rest := by
  rw [← tokens_dropWhile]
  cases hs : s.dropWhile sep with
  | nil => exact .inl ⟨by rw [strtok, hs], rfl⟩
  | cons c cs =>
    right
    refine ⟨_, _, by rw [strtok, hs], ?_⟩
    have hc : sep c = false := by
      have hhead := List.head?_dropWhile_not sep s
      rw [hs] at hhead
      simpa using hhead
    have ht : (c :: cs).takeWhile (!sep ·) ≠ [] := by
      rw [List.takeWhile_cons_of_pos (by simp [hc])]
      simp
    have hnone : ∀ d ∈ (c :: cs).takeWhile (!sep ·), sep d = false := by
      intro d hd
      simpa using List.mem_takeWhile_imp hd
    have happend := List.takeWhile_append_dropWhile (p := (!sep ·)) (l := c :: cs)
    cases hrest : (c :: cs).dropWhile (!sep ·) with
    | nil =>
      rw [hrest, List.append_nil] at happend
      rw [List.drop_nil, tokens_nil, happend]
      rw [happend] at hnone
      exact tokens_singleton (by simp) hnone
    | cons d rest =>
      have hd : sep d = true := by
        have hhead := List.head?_dropWhile_not (!sep ·) (c :: cs)
        rw [hrest] at hhead
        simpa using hhead
      rw [hrest] at happend
      rw [List.drop_one, List.tail_cons, ← tokens_append ht hnone hd, happend]

/-- Digits are read whole: no space or sign is skipped before them. -/
theorem strtol_of_digits {ds : List Char} (hne : ds ≠ []) (h : ∀ c ∈ ds, c.isDigit = true) :
    strtol ds = .ofInt (max (-2 ^ 63) (min (2 ^ 63 - 1) (Nat.ofDigitChars 10 ds 0 : Nat))) := by
  have htake : ds.takeWhile Char.isDigit = ds := List.takeWhile_eq_self_iff.mpr h
  obtain ⟨c, cs, rfl⟩ := List.exists_cons_of_ne_nil hne
  obtain ⟨hlo, hhi⟩ := Char.isDigit_iff_toNat.mp (h c List.mem_cons_self)
  change 48 ≤ c.toNat at hlo
  change c.toNat ≤ 57 at hhi
  have hspace : isSpace c = false := by
    simp only [isSpace, Bool.or_eq_false_iff, decide_eq_false_iff_not, Bool.and_eq_false_iff]
    omega
  rw [strtol, List.dropWhile_cons_of_neg (by simp [hspace])]
  split
  · rename_i heq
    obtain ⟨rfl, -⟩ := List.cons.inj heq
    exact absurd hlo (by decide)
  · rename_i heq
    obtain ⟨rfl, -⟩ := List.cons.inj heq
    exact absurd hlo (by decide)
  · rw [leadingValue, htake]

theorem atoi_of_digits {ds : List Char} (hne : ds ≠ []) (h : ∀ c ∈ ds, c.isDigit = true)
    (hlt : Nat.ofDigitChars 10 ds 0 < 2 ^ 31) :
    (atoi ds).toInt = Nat.ofDigitChars 10 ds 0 := by
  have hclamp : max (-2 ^ 63) (min (2 ^ 63 - 1) (Nat.ofDigitChars 10 ds 0 : Int)) =
      Nat.ofDigitChars 10 ds 0 := by omega
  rw [atoi, strtol_of_digits hne h, hclamp]
  have hword : (Int64.ofInt (Nat.ofDigitChars 10 ds 0 : Nat)).toInt =
      (Nat.ofDigitChars 10 ds 0 : Nat) := Int64.toInt_ofInt_of_le (by omega) (by omega)
  rw [Int64.toInt_toInt32, hword]
  exact Int.bmod_eq_of_le (by omega) (by omega)

end CString
