import SmartIo.KernelInt
import Mathlib.Data.List.DropRight

/-!
# Text as the kernel reads and prints it

A file of procfs speaks decimal text. `%u` and `%d` print a number, `kstrtoull` and its
siblings read one back and refuse everything else, and `sscanf` takes what it can use from
the front of a string. Here are these functions, for texts as lists of characters; a
character is a byte, and so the strings of C end at the first that is zero.

What is printed is a line of words: no spaces within a word, one between two of them, and
a newline at the end. Stripped, such a line is its words again (`strstrip_line`), and each
function reads a number back that `%u` or `%d` has printed. Whatever the text is, a number
that is read fits its type.
-/

namespace KernelText

/-! ## Strings -/

/-- `isspace`, by the kernel's own table of characters. -/
def isSpace (c : Char) : Bool :=
  decide (9 ≤ c.toNat ∧ c.toNat ≤ 13) || decide (c.toNat = 32) || decide (c.toNat = 160)

/-- `'\n'`. -/
def newline : Char := .ofNat 10

/-- The string in a buffer. -/
def cString (buf : List Char) : List Char := buf.takeWhile (fun c => decide (c.toNat ≠ 0))

/-- `skip_spaces`. -/
def skipSpaces (s : List Char) : List Char := s.dropWhile isSpace

/-- `strstrip`. -/
def strstrip (s : List Char) : List Char := skipSpaces (s.rdropWhile isSpace)

/-! ## Reading a number -/

/-- Why a number is refused: `-EINVAL` or `-ERANGE`. -/
inductive ParseError where
  | einval
  | erange
deriving DecidableEq, Repr

/-- `_kstrtoull` in base ten: digits, perhaps a newline, and nothing else. -/
def kstrtoullDigits (s : List Char) : Except ParseError ℕ :=
  let digits := s.takeWhile Char.isDigit
  let rest := s.dropWhile Char.isDigit
  let v := Nat.ofDigitChars 10 digits 0
  if u64Max < v then .error .erange
  else if digits = [] then .error .einval
  else if rest = [] ∨ rest = [newline] then .ok v
  else .error .einval

/-- `kstrtoull`, and `kstrtou64`. -/
def kstrtoull (s : List Char) : Except ParseError ℕ :=
  if s.head? = some '+' then kstrtoullDigits s.tail else kstrtoullDigits s

/-- `kstrtoll`. -/
def kstrtoll (s : List Char) : Except ParseError ℤ :=
  if s.head? = some '-' then
    match kstrtoullDigits s.tail with
    | .ok v => if 2 ^ 63 < v then .error .erange else .ok (-(v : ℤ))
    | .error e => .error e
  else
    match kstrtoull s with
    | .ok v => if 2 ^ 63 ≤ v then .error .erange else .ok v
    | .error e => .error e

/-- An `int`. -/
def IsInt (z : ℤ) : Prop := -2 ^ 31 ≤ z ∧ z < 2 ^ 31

instance : DecidablePred IsInt := fun z => inferInstanceAs (Decidable (-2 ^ 31 ≤ z ∧ z < 2 ^ 31))

/-- `kstrtoint`. -/
def kstrtoint (s : List Char) : Except ParseError ℤ :=
  match kstrtoll s with
  | .ok z => if IsInt z then .ok z else .error .erange
  | .error e => .error e

/-- `kstrtou32`. -/
def kstrtou32 (s : List Char) : Except ParseError ℕ :=
  match kstrtoull s with
  | .ok v => if v ≤ u32Max then .ok v else .error .erange
  | .error e => .error e

/-- A number stored in an `int`. -/
def asInt (z : ℤ) : ℤ := z.bmod (2 ^ 32)

/-- Digits at the front of a string. -/
def scanDigits (s : List Char) : Option (ℕ × List Char) :=
  if s.takeWhile Char.isDigit = [] then none
  else some (Nat.ofDigitChars 10 (s.takeWhile Char.isDigit) 0, s.dropWhile Char.isDigit)

/-- `%u` of `sscanf`, with what is left of the string. -/
def scanU (s : List Char) : Option (ℕ × List Char) :=
  (scanDigits (skipSpaces s)).map (fun p => (p.1 % 2 ^ 32, p.2))

/-- `%d` of `sscanf`. -/
def scanD (s : List Char) : Option (ℤ × List Char) :=
  let s := skipSpaces s
  if s.head? = some '-' then (scanDigits s.tail).map (fun p => (asInt (-(p.1 : ℤ)), p.2))
  else (scanDigits s).map (fun p => (asInt p.1, p.2))

/-- `%s` of `sscanf` with a field width. -/
def scanS (width : ℕ) (s : List Char) : Option (List Char × List Char) :=
  if s = [] then none
  else
    let s := skipSpaces s
    let word := (s.takeWhile (fun c => !isSpace c)).take width
    some (word, s.drop word.length)

/-! ## Printing -/

/-- `%u`. -/
def printU (n : ℕ) : List Char := Nat.toDigits 10 n

/-- `%d`. -/
def printD (z : ℤ) : List Char :=
  if z < 0 then '-' :: Nat.toDigits 10 z.natAbs else Nat.toDigits 10 z.natAbs

/-- Words with a space between them. -/
def unwords : List (List Char) → List Char
  | [] => []
  | [w] => w
  | w :: w' :: words => w ++ ' ' :: unwords (w' :: words)

/-- A line of words. -/
def line (words : List (List Char)) : List Char := unwords words ++ [newline]

/-- A word: a string that is not empty, with no space in it. -/
structure Word (w : List Char) : Prop where
  ne_nil : w ≠ []
  noSpace : ∀ c ∈ w, isSpace c = false
  noNul : ∀ c ∈ w, c.toNat ≠ 0

/-! ## A line of words -/

variable {n k : ℕ} {z : ℤ} {w : List Char} {words : List (List Char)}

theorem toNat_of_isDigit {c : Char} (h : c.isDigit = true) : 48 ≤ c.toNat ∧ c.toNat ≤ 57 := by
  unfold Char.isDigit at h
  simp only [Bool.and_eq_true, decide_eq_true_eq, ge_iff_le, UInt32.le_iff_toNat_le] at h
  exact h

theorem isSpace_of_isDigit {c : Char} (h : c.isDigit = true) : isSpace c = false := by
  have hc := toNat_of_isDigit h
  unfold isSpace
  simp only [Bool.or_eq_false_iff, decide_eq_false_iff_not]
  omega

theorem isDigit_of_mem_toDigits {c : Char} (hc : c ∈ Nat.toDigits 10 n) : c.isDigit = true :=
  Nat.isDigit_of_mem_toDigits (by decide) (by decide) hc

/-- A string is a word if each of its characters may stand in one. -/
theorem word_of_all (hne : w ≠ [])
    (h : (w.all fun c => !isSpace c && decide (c.toNat ≠ 0)) = true) : Word w where
  ne_nil := hne
  noSpace c hc := by
    have hboth := (Bool.and_eq_true_iff.mp (List.all_eq_true.mp h c hc)).1
    exact Bool.not_eq_true' _ ▸ hboth
  noNul c hc := of_decide_eq_true (Bool.and_eq_true_iff.mp (List.all_eq_true.mp h c hc)).2

theorem word_toDigits (n : ℕ) : Word (Nat.toDigits 10 n) where
  ne_nil := Nat.toDigits_ne_nil
  noSpace c hc := isSpace_of_isDigit (isDigit_of_mem_toDigits hc)
  noNul c hc := by
    have := toNat_of_isDigit (isDigit_of_mem_toDigits hc)
    omega

theorem word_printU (n : ℕ) : Word (printU n) := word_toDigits n

theorem word_printD (z : ℤ) : Word (printD z) := by
  have hdigits := word_toDigits z.natAbs
  unfold printD
  split
  · exact
      { ne_nil := List.cons_ne_nil _ _
        noSpace := by
          intro c hc
          rcases List.mem_cons.mp hc with rfl | hc
          · decide
          · exact hdigits.noSpace c hc
        noNul := by
          intro c hc
          rcases List.mem_cons.mp hc with rfl | hc
          · decide
          · exact hdigits.noNul c hc }
  · exact hdigits

theorem unwords_cons_cons (w w' : List Char) (words : List (List Char)) :
    unwords (w :: w' :: words) = w ++ ' ' :: unwords (w' :: words) := rfl

theorem unwords_ne_nil (hne : words ≠ []) (hwords : ∀ w ∈ words, Word w) :
    unwords words ≠ [] := by
  match words with
  | [] => exact absurd rfl hne
  | [w] => exact (hwords w List.mem_cons_self).ne_nil
  | w :: w' :: words => exact List.append_ne_nil_of_right_ne_nil _ (List.cons_ne_nil _ _)

theorem noNul_unwords (hwords : ∀ w ∈ words, Word w) : ∀ c ∈ unwords words, c.toNat ≠ 0 := by
  induction words with
  | nil => exact fun c hc => absurd hc List.not_mem_nil
  | cons w words ih =>
    have hw := (hwords w List.mem_cons_self).noNul
    have hrest := ih fun w' hw' => hwords w' (List.mem_cons_of_mem w hw')
    cases words with
    | nil => exact hw
    | cons w' words =>
      intro c hc
      rw [unwords_cons_cons] at hc
      rcases List.mem_append.mp hc with hc | hc
      · exact hw c hc
      · rcases List.mem_cons.mp hc with rfl | hc
        · decide
        · exact hrest c hc

/-- Words end with a character that is no space. -/
theorem getLast_unwords (hwords : ∀ w ∈ words, Word w) (h : unwords words ≠ []) :
    isSpace ((unwords words).getLast h) = false := by
  induction words with
  | nil => exact absurd rfl h
  | cons w words ih =>
    have hw := hwords w List.mem_cons_self
    cases words with
    | nil => exact hw.noSpace _ (List.getLast_mem h)
    | cons w' words =>
      have hrest : ∀ x ∈ w' :: words, Word x := fun x hx => hwords x (List.mem_cons_of_mem w hx)
      have hne : unwords (w' :: words) ≠ [] := unwords_ne_nil (List.cons_ne_nil _ _) hrest
      have hlast :
          (unwords (w :: w' :: words)).getLast h = (unwords (w' :: words)).getLast hne := by
        simp only [unwords_cons_cons, List.getLast_append_of_ne_nil _ (List.cons_ne_nil _ _),
          List.getLast_cons hne]
      rw [hlast]
      exact ih hrest hne

/-- They begin with their first word. -/
theorem skipSpaces_word_append (hw : Word w) (rest : List Char) :
    skipSpaces (w ++ rest) = w ++ rest := by
  cases w with
  | nil => exact absurd rfl hw.ne_nil
  | cons c w =>
    have hc : ¬ isSpace c = true := by
      rw [hw.noSpace c List.mem_cons_self]
      exact Bool.false_ne_true
    exact List.dropWhile_cons_of_neg hc

theorem skipSpaces_unwords (hwords : ∀ w ∈ words, Word w) :
    skipSpaces (unwords words) = unwords words := by
  match words with
  | [] => rfl
  | [w] =>
    have h := skipSpaces_word_append (hwords w List.mem_cons_self) []
    rw [List.append_nil] at h
    exact h
  | w :: w' :: words => exact skipSpaces_word_append (hwords w List.mem_cons_self) _

/-- **A line that is copied and stripped is its words.** -/
theorem strstrip_line (hwords : ∀ w ∈ words, Word w) :
    strstrip (cString (line words)) = unwords words := by
  have hcopy : cString (line words) = line words := by
    refine List.takeWhile_eq_self_iff.mpr fun c hc => decide_eq_true ?_
    rcases List.mem_append.mp hc with hc | hc
    · exact noNul_unwords hwords c hc
    · rw [List.mem_singleton.mp hc]
      decide
  have hstrip : (line words).rdropWhile isSpace = unwords words := by
    unfold line
    rw [List.rdropWhile_concat_pos _ _ _ (by decide)]
    refine List.rdropWhile_eq_self_iff.mpr fun h => ?_
    rw [getLast_unwords hwords h]
    exact Bool.false_ne_true
  rw [hcopy, strstrip, hstrip, skipSpaces_unwords hwords]

/-! ## Numbers read back -/

/-- The rest of a string whose digits have been read. -/
def NoDigit (rest : List Char) : Prop := ∀ c ∈ rest.head?, c.isDigit = false

theorem noDigit_nil : NoDigit [] := fun _ hc => absurd hc (Option.not_mem_none _)

theorem noDigit_space (rest : List Char) : NoDigit (' ' :: rest) := by
  intro c hc
  rw [List.head?_cons, Option.mem_some_iff] at hc
  rw [← hc]
  decide

theorem takeWhile_toDigits {rest : List Char} (hrest : NoDigit rest) :
    (Nat.toDigits 10 n ++ rest).takeWhile Char.isDigit = Nat.toDigits 10 n := by
  rw [List.takeWhile_append_of_pos fun c hc => isDigit_of_mem_toDigits hc]
  cases rest with
  | nil => rw [List.takeWhile_nil, List.append_nil]
  | cons c rest =>
    rw [List.takeWhile_cons_of_neg, List.append_nil]
    rw [hrest c rfl]
    exact Bool.false_ne_true

theorem dropWhile_toDigits {rest : List Char} (hrest : NoDigit rest) :
    (Nat.toDigits 10 n ++ rest).dropWhile Char.isDigit = rest := by
  rw [List.dropWhile_append_of_pos fun c hc => isDigit_of_mem_toDigits hc]
  cases rest with
  | nil => rfl
  | cons c rest =>
    refine List.dropWhile_cons_of_neg ?_
    rw [hrest c rfl]
    exact Bool.false_ne_true

theorem kstrtoullDigits_toDigits (hn : n ≤ u64Max) :
    kstrtoullDigits (Nat.toDigits 10 n) = .ok n := by
  have htake := takeWhile_toDigits (n := n) noDigit_nil
  have hdrop := dropWhile_toDigits (n := n) noDigit_nil
  rw [List.append_nil] at htake hdrop
  unfold kstrtoullDigits
  rw [htake, hdrop]
  dsimp only
  rw [Nat.ofDigitChars_ten_toDigits, if_neg (Nat.not_lt.mpr hn), if_neg Nat.toDigits_ne_nil,
    if_pos (Or.inl rfl)]

/-- Digits begin with neither sign. -/
theorem head_toDigits_ne {c : Char} (hc : c.isDigit = false) :
    (Nat.toDigits 10 n).head? ≠ some c := by
  intro h
  have := isDigit_of_mem_toDigits (List.mem_of_head? h)
  exact absurd (hc.symm.trans this) Bool.false_ne_true

/-- **`kstrtoull` reads what `%u` printed.** -/
theorem kstrtoull_printU (hn : n ≤ u64Max) : kstrtoull (printU n) = .ok n := by
  unfold kstrtoull printU
  rw [if_neg (head_toDigits_ne (by decide)), kstrtoullDigits_toDigits hn]

theorem kstrtou32_printU (hn : n ≤ u32Max) : kstrtou32 (printU n) = .ok n := by
  unfold kstrtou32
  rw [kstrtoull_printU (hn.trans (by decide))]
  exact if_pos hn

theorem isInt_natAbs (hz : IsInt z) : z.natAbs ≤ 2 ^ 31 := by
  unfold IsInt at hz
  omega

/-- **`kstrtoint` reads what `%d` printed.** -/
theorem kstrtoint_printD (hz : IsInt z) : kstrtoint (printD z) = .ok z := by
  have habs := isInt_natAbs hz
  have hread : kstrtoullDigits (Nat.toDigits 10 z.natAbs) = .ok z.natAbs :=
    kstrtoullDigits_toDigits (habs.trans (by decide))
  have hlong : kstrtoll (printD z) = .ok z := by
    unfold kstrtoll printD
    by_cases hneg : z < 0
    · rw [if_pos hneg, List.head?_cons, if_pos rfl, List.tail_cons, hread]
      dsimp only
      rw [if_neg (by omega)]
      congr 1
      omega
    · rw [if_neg hneg, if_neg (head_toDigits_ne (by decide)), kstrtoull,
        if_neg (head_toDigits_ne (by decide)), hread]
      dsimp only
      rw [if_neg (by omega)]
      congr 1
      omega
  unfold kstrtoint
  rw [hlong]
  exact if_pos hz

/-- A number that `%d` printed with a sign is refused where none is expected. -/
theorem kstrtou32_printD_of_neg (hz : z < 0) : kstrtou32 (printD z) = .error .einval := by
  have hread : kstrtoullDigits ('-' :: Nat.toDigits 10 z.natAbs) = .error .einval := by
    unfold kstrtoullDigits
    rw [List.takeWhile_cons_of_neg (by decide), List.dropWhile_cons_of_neg (by decide)]
    rfl
  unfold kstrtou32 kstrtoull printD
  rw [if_pos hz, List.head?_cons, if_neg (by decide), hread]

theorem scanDigits_toDigits {rest : List Char} (hrest : NoDigit rest) :
    scanDigits (Nat.toDigits 10 n ++ rest) = some (n, rest) := by
  unfold scanDigits
  rw [takeWhile_toDigits hrest, dropWhile_toDigits hrest, if_neg Nat.toDigits_ne_nil,
    Nat.ofDigitChars_ten_toDigits]

/-- **`sscanf` reads what `%u` printed** and leaves the rest. -/
theorem scanU_printU {rest : List Char} (hn : n ≤ u32Max) (hrest : NoDigit rest) :
    scanU (printU n ++ rest) = some (n, rest) := by
  have hlt : n < 2 ^ 32 := Nat.lt_of_le_of_lt hn (by decide)
  unfold scanU
  rw [skipSpaces_word_append (word_printU n), printU, scanDigits_toDigits hrest]
  simp only [Option.map_some, Nat.mod_eq_of_lt hlt]

/-- An `int` is stored in an `int` as it is. -/
theorem asInt_of_isInt (hz : IsInt z) : asInt z = z := by
  unfold IsInt at hz
  exact Int.bmod_eq_of_le (by omega) (by omega)

/-- **And what `%d` printed**, sign included. -/
theorem scanD_printD {rest : List Char} (hz : IsInt z) (hrest : NoDigit rest) :
    scanD (printD z ++ rest) = some (z, rest) := by
  unfold scanD
  rw [skipSpaces_word_append (word_printD z)]
  dsimp only
  unfold printD
  by_cases hneg : z < 0
  · have habs : -(z.natAbs : ℤ) = z := by omega
    rw [if_pos hneg, List.cons_append, List.head?_cons, if_pos rfl, List.tail_cons,
      scanDigits_toDigits hrest]
    simp only [Option.map_some, habs, asInt_of_isInt hz]
  · have habs : (z.natAbs : ℤ) = z := by omega
    have hhead : (Nat.toDigits 10 z.natAbs ++ rest).head? ≠ some '-' := by
      rw [List.head?_append_of_ne_nil _ Nat.toDigits_ne_nil]
      exact head_toDigits_ne (by decide)
    rw [if_neg hneg, if_neg hhead, scanDigits_toDigits hrest]
    simp only [Option.map_some, habs, asInt_of_isInt hz]

theorem skipSpaces_space (rest : List Char) : skipSpaces (' ' :: rest) = skipSpaces rest :=
  List.dropWhile_cons_of_pos (by decide)

/-- **`sscanf` takes a word**, if the field is wide enough. -/
theorem scanS_word {rest : List Char} {width : ℕ} (hw : Word w) (hwidth : w.length ≤ width)
    (hrest : rest = [] ∨ ∃ rest', rest = ' ' :: rest') :
    scanS width (w ++ rest) = some (w, rest) := by
  have htake : (w ++ rest).takeWhile (fun c => !isSpace c) = w := by
    rw [List.takeWhile_append_of_pos fun c hc => by rw [hw.noSpace c hc]; rfl]
    rcases hrest with rfl | ⟨rest', rfl⟩
    · rw [List.takeWhile_nil, List.append_nil]
    · rw [List.takeWhile_cons_of_neg (by decide), List.append_nil]
  have hne : w ++ rest ≠ [] := List.append_ne_nil_of_left_ne_nil hw.ne_nil rest
  unfold scanS
  rw [if_neg hne, skipSpaces_word_append hw]
  dsimp only
  rw [htake, List.take_of_length_le hwidth, List.drop_left]

/-! ## Lengths -/

theorem length_toDigits_le {n k : ℕ} (hk : 0 < k) (hn : n < 10 ^ k) :
    (Nat.toDigits 10 n).length ≤ k := (Nat.length_toDigits_le_iff (by decide) hk).mpr hn

theorem length_printU_le {n : ℕ} (hn : n ≤ u64Max) : (printU n).length ≤ 20 :=
  length_toDigits_le (by decide) (Nat.lt_of_le_of_lt hn (by decide))

theorem length_printD_le {z : ℤ} (hz : IsInt z) : (printD z).length ≤ 11 := by
  have habs : (Nat.toDigits 10 z.natAbs).length ≤ 10 :=
    length_toDigits_le (by decide) (Nat.lt_of_le_of_lt (isInt_natAbs hz) (by decide))
  unfold printD
  split
  · exact Nat.succ_le_succ habs
  · exact habs.trans (Nat.le_succ 10)

theorem length_line_singleton (w : List Char) : (line [w]).length = w.length + 1 := by
  unfold line unwords
  rw [List.length_append, List.length_singleton]

/-! ## What is read -/

/-- What `kstrtou32` reads is a `u32`. -/
theorem le_of_kstrtou32 {text : List Char} {n : ℕ} (h : kstrtou32 text = .ok n) :
    n ≤ u32Max := by
  unfold kstrtou32 at h
  split at h
  · split at h
    next hle => exact Except.ok.inj h ▸ hle
    · cases h
  · cases h

/-- What `kstrtoint` reads is an `int`. -/
theorem isInt_of_kstrtoint {text : List Char} {z : ℤ} (h : kstrtoint text = .ok z) :
    IsInt z := by
  unfold kstrtoint at h
  split at h
  · split at h
    next hint => exact Except.ok.inj h ▸ hint
    · cases h
  · cases h

theorem isInt_asInt (z : ℤ) : IsInt (asInt z) :=
  ⟨Int.le_bmod (by decide), Int.bmod_lt (by decide)⟩

theorem isInt_of_scanD {text : List Char} {p : ℤ × List Char} (h : scanD text = some p) :
    IsInt p.1 := by
  unfold scanD at h
  dsimp only at h
  split at h
  · obtain ⟨v, -, rfl⟩ := Option.map_eq_some_iff.mp h
    exact isInt_asInt _
  · obtain ⟨v, -, rfl⟩ := Option.map_eq_some_iff.mp h
    dsimp only
    exact isInt_asInt _

end KernelText
