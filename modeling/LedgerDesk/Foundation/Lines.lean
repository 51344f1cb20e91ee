import LedgerDesk.Foundation.Surrogates

/-!
# Lines

A text cut into its lines, each with what ends it: a carriage return, a line feed, or the two
together, which are never cut apart. Sizes of the parts give ranges that lie one behind the other,
and a range of the bytes of a text gives the bytes of its part.
-/
namespace Foundation.Lines

open JsonUnits Surrogates

/-- `[\r\n]`. -/
def isTerminator (c : Nat) : Bool := c == 13 || c == 10

/-- The matches of `/[^\r\n]*(?:\r\n|\r|\n|$)/g`, the letters `run` having been read of the next one.
The last match is the empty one at the end. -/
def lineMatches : List Nat → List Nat → List (List Nat)
  | run, [] => if run = [] then [[]] else [run, []]
  | run, 13 :: 10 :: rest => (run ++ [13, 10]) :: lineMatches [] rest
  | run, c :: rest =>
    if isTerminator c then (run ++ [c]) :: lineMatches [] rest else lineMatches (run ++ [c]) rest

/-- `(text.match(…) || []).filter(Boolean)`. -/
def lines (text : List Nat) : List (List Nat) := (lineMatches [] text).filter fun line => line ≠ []

/-! ### What lines are -/

def Clean (run : List Nat) : Prop := ∀ c ∈ run, isTerminator c = false

/-- A run without terminators, and one terminator behind it. -/
def Ended (line : List Nat) : Prop :=
  ∃ run terminator, line = run ++ terminator ∧ Clean run ∧ terminator ∈ [[13, 10], [13], [10]]

/-- The text falls into these lines; a carriage return alone ends a line only if no line feed is
behind it. -/
inductive Cut : List Nat → List (List Nat) → Prop
  | nil : Cut [] []
  | rest {run : List Nat} (some_ : run ≠ []) (clean : Clean run) : Cut run [run]
  | line {run terminator text : List Nat} {parts : List (List Nat)} (clean : Clean run)
      (ends : terminator ∈ [[13, 10], [13], [10]]) (whole : terminator = [13] → text.head? ≠ some 10)
      (cut : Cut text parts) : Cut (run ++ terminator ++ text) ((run ++ terminator) :: parts)

theorem Clean.snoc {run : List Nat} {c : Nat} (clean : Clean run) (plain : isTerminator c = false) :
    Clean (run ++ [c]) := by
  intro d member
  rcases List.mem_append.mp member with inside | last
  · exact clean d inside
  · rw [List.mem_singleton.mp last]
    exact plain

theorem clean_nil : Clean [] := fun _ member => nomatch member

theorem cut_lineMatches {run text : List Nat} (clean : Clean run) :
    Cut (run ++ text) ((lineMatches run text).filter fun line => line ≠ []) := by
  induction run, text using lineMatches.induct with
  | case1 => exact .nil
  | case2 run some_ =>
    rw [lineMatches, List.append_nil, if_neg some_]
    simpa [some_] using Cut.rest some_ clean
  | case3 run rest ih =>
    have later := ih clean_nil
    rw [lineMatches, List.filter_cons_of_pos (by simp)]
    have whole : Cut (run ++ [13, 10] ++ rest) _ := Cut.line clean (by simp) (by simp) later
    simpa using whole
  | case4 run c rest apart terminator ih =>
    have later := ih clean_nil
    rw [lineMatches, if_pos terminator, List.filter_cons_of_pos (by simp)]
    · simp only [isTerminator, Bool.or_eq_true, beq_iff_eq] at terminator
      have alone : [c] = [13] → rest.head? ≠ some 10 := by
        rintro ⟨⟩ feed
        obtain ⟨rest', rfl⟩ := List.head?_eq_some_iff.mp feed
        exact apart rest' rfl rfl
      have whole : Cut (run ++ [c] ++ rest) _ :=
        Cut.line clean (by simpa using terminator) alone later
      simpa using whole
    · exact apart
  | case5 run c rest apart plain ih =>
    have later := ih (clean.snoc (by simpa using plain))
    rw [lineMatches, if_neg plain]
    · simpa using later
    · exact apart

theorem cut_lines (text : List Nat) : Cut text (lines text) := cut_lineMatches clean_nil

/-! ### What follows of a cut -/

section Follows

variable {text : List Nat} {parts : List (List Nat)}

theorem Cut.flatten (cut : Cut text parts) : parts.flatten = text := by
  induction cut with
  | nil => rfl
  | rest _ _ => simp
  | line _ _ _ _ ih => rw [List.flatten_cons, ih]

theorem terminator_ne_nil {terminator : List Nat} (ends : terminator ∈ [[13, 10], [13], [10]]) :
    terminator ≠ [] := by
  rintro rfl
  simp at ends

theorem Cut.ne_nil (cut : Cut text parts) : ∀ part ∈ parts, part ≠ [] := by
  induction cut with
  | nil => simp
  | rest some_ _ => simpa using some_
  | line _ ends _ _ ih =>
    intro part member
    rcases List.mem_cons.mp member with rfl | later
    · simp [terminator_ne_nil ends]
    · exact ih part later

/-- A terminator ends every line but the last, and stands nowhere else. -/
theorem Cut.ended (cut : Cut text parts) :
    (∀ part ∈ parts, Ended part ∨ Clean part) ∧ ∀ part ∈ parts.dropLast, Ended part := by
  induction cut with
  | nil => simp
  | rest _ clean =>
    constructor
    · intro part member
      rw [List.mem_singleton.mp member]
      exact Or.inr clean
    · simp
  | @line run terminator text parts clean ends _ cut ih =>
    have first : Ended (run ++ terminator) := ⟨run, terminator, rfl, clean, ends⟩
    constructor
    · intro part member
      rcases List.mem_cons.mp member with rfl | later
      · exact Or.inl first
      · exact ih.1 part later
    · intro part member
      cases parts with
      | nil => simp at member
      | cons next parts =>
        rw [List.dropLast_cons_cons] at member
        rcases List.mem_cons.mp member with rfl | later
        · exact first
        · exact ih.2 part later

/-- Between two lines there is no carriage return with its line feed. -/
theorem Cut.whole (cut : Cut text parts) :
    parts.IsChain fun a b => ¬(a.getLast? = some 13 ∧ b.head? = some 10) := by
  induction cut with
  | nil => exact .nil
  | rest _ _ => exact .singleton _
  | @line run terminator text parts _ ends whole cut ih =>
    cases parts with
    | nil => exact .singleton _
    | cons next parts =>
      refine .cons_cons ?_ ih
      rintro ⟨last, first⟩
      have ahead : text.head? = some 10 := by
        rw [← cut.flatten, List.flatten_cons, List.head?_append, first, Option.some_or]
      rw [List.getLast?_append_of_ne_nil _ (terminator_ne_nil ends)] at last
      simp only [List.mem_cons, List.not_mem_nil, or_false] at ends
      rcases ends with rfl | rfl | rfl
      · simp at last
      · exact whole rfl ahead
      · simp at last

end Follows

/-- Parts that are not empty are no more than the letters they have. -/
theorem length_le_sum_length {parts : List (List Nat)} (some_ : ∀ part ∈ parts, part ≠ []) :
    parts.length ≤ (parts.map List.length).sum := by
  induction parts with
  | nil => exact le_refl 0
  | cons part rest ih =>
    have positive := List.length_pos_of_ne_nil (some_ part (List.mem_cons_self ..))
    have later := ih fun p member => some_ p (List.mem_cons_of_mem _ member)
    rw [List.length_cons, List.map_cons, List.sum_cons]
    omega

/-! ### Ranges -/

/-- The ranges of the parts by their sizes, one behind the other. -/
def ranges (size : List Nat → Nat) : Nat → List (List Nat) → List (Nat × Nat)
  | _, [] => []
  | start, part :: rest => (start, start + size part) :: ranges size (start + size part) rest

/-- Ranges that lie one behind the other, from the first number to the second. -/
def Contiguous : Nat → Nat → List (Nat × Nat) → Prop
  | start, stop, [] => start = stop
  | start, stop, range :: rest => range.1 = start ∧ range.1 ≤ range.2 ∧ Contiguous range.2 stop rest

theorem contiguous_ranges (size : List Nat → Nat) (start : Nat) (parts : List (List Nat)) :
    Contiguous start (start + (parts.map size).sum) (ranges size start parts) := by
  induction parts generalizing start with
  | nil => rfl
  | cons part rest ih =>
    refine ⟨rfl, Nat.le_add_right .., ?_⟩
    rw [List.map_cons, List.sum_cons, ← Nat.add_assoc]
    exact ih (start + size part)

/-- A text that does not end in the first half of a pair falls into characters by itself. -/
theorem scalars_append {a : List Nat} (b : List Nat)
    (closed : ∀ c, a.getLast? = some c → isHigh c = false) : scalars (a ++ b) = scalars a ++ scalars b := by
  induction a using scalars.induct with
  | case1 => rfl
  | case2 c =>
    have low := closed c rfl
    cases b with
    | nil => rfl
    | cons d b => simp [scalars, low]
  | case3 h l rest pair ih =>
    have later := ih fun c last => closed c (by
      cases rest with
      | nil => cases last
      | cons d rest => simpa using last)
    rw [List.cons_append, List.cons_append, scalars, if_pos pair, scalars, if_pos pair, later]
    rfl
  | case4 h l rest apart ih =>
    have later := ih fun c last => closed c (by rw [List.getLast?_cons_cons]; exact last)
    rw [List.cons_append, List.cons_append, scalars, if_neg apart, scalars, if_neg apart,
      ← List.cons_append, later]
    rfl

theorem encodeUtf8_append {a : List Nat} (b : List Nat)
    (closed : ∀ c, a.getLast? = some c → isHigh c = false) :
    encodeUtf8 (a ++ b) = encodeUtf8 a ++ encodeUtf8 b := by
  rw [encodeUtf8, scalars_append b closed, String.ofList_append]
  exact String.toByteArray_append

theorem scalars_utf16 (c : Char) : scalars (utf16 c) = [c] ∧
    ∀ d, (utf16 c).getLast? = some d → isHigh d = false := by
  have formed := wellFormed_utf16 c
  have valid : c.toNat.isValidChar := c.valid
  unfold Nat.isValidChar at valid
  rw [utf16] at formed ⊢
  split
  · next unit =>
    rw [if_pos unit] at formed
    have plain : isPlain c.toNat = true := by simpa [hasLone] using (hasLone_iff _).mpr formed
    constructor
    · simp [scalars, scalar, plain]
    · rintro d ⟨⟩
      exact (isPlain_iff.mp plain).1
  · next beyond =>
    constructor
    · have high : isHigh (0xD800 + (c.toNat - 0x10000) / 0x400) = true := by
        simp only [isHigh, Bool.and_eq_true, decide_eq_true_eq]
        omega
      have low : isLow (0xDC00 + (c.toNat - 0x10000) % 0x400) = true := by
        simp only [isLow, Bool.and_eq_true, decide_eq_true_eq]
        omega
      have same : 0x10000 + (0xD800 + (c.toNat - 0x10000) / 0x400 - 0xD800) * 0x400 +
          (0xDC00 + (c.toNat - 0x10000) % 0x400 - 0xDC00) = c.toNat := by omega
      simp only [scalars, high, low, same, Bool.and_self, if_true, Char.ofNat_toNat]
    · intro d last
      rw [List.getLast?_cons_cons, List.getLast?_singleton, Option.some_inj] at last
      rw [← last]
      simp only [isHigh, Bool.and_eq_false_iff, decide_eq_false_iff_not]
      omega

theorem scalars_units16 (text : String) : scalars (units16 text) = text.toList := by
  rw [units16]
  induction text.toList with
  | nil => rfl
  | cons c cs ih =>
    obtain ⟨one, closed⟩ := scalars_utf16 c
    rw [List.flatMap_cons, scalars_append _ closed, one, ih]
    rfl

/-- What has been decoded is encoded as it was. -/
theorem encodeUtf8_decodeUtf8 {bytes : ByteArray} {text : List Nat} (decoded : decodeUtf8 bytes = some text) :
    encodeUtf8 text = bytes ∧ WellFormed text := by
  obtain ⟨string, read, rfl⟩ := Option.map_eq_some_iff.mp decoded
  refine ⟨?_, wellFormed_units16 string⟩
  rw [encodeUtf8, scalars_units16, String.ofList_toList]
  rw [String.fromUTF8?] at read
  split at read
  · cases read
    rfl
  · cases read

theorem size_encodeUtf8 (s : List Nat) :
    (encodeUtf8 s).size = ((scalars s).map Char.utf8Size).sum := by
  rw [encodeUtf8]
  induction scalars s with
  | nil => rfl
  | cons c cs ih =>
    have split : String.ofList (c :: cs) = String.singleton c ++ String.ofList cs := by
      rw [← List.singleton_append, String.ofList_append, String.singleton_eq_ofList]
    rw [split, List.map_cons, List.sum_cons, ← ih]
    exact String.utf8ByteSize_append.trans (by rw [String.utf8ByteSize_singleton]; rfl)

/-- A code unit takes one byte at least, and a pair of them takes four. -/
theorem length_le_size (s : List Nat) : s.length ≤ (encodeUtf8 s).size := by
  rw [size_encodeUtf8]
  induction s using scalars.induct with
  | case1 => exact Nat.zero_le _
  | case2 c => simpa [scalars, Nat.one_le_iff_ne_zero, Nat.pos_iff_ne_zero] using Char.utf8Size_pos (scalar c)
  | case3 h l rest pair ih =>
    obtain ⟨high, low⟩ := (Bool.and_eq_true ..).mp pair
    simp only [isHigh, isLow, Bool.and_eq_true, decide_eq_true_eq] at high low
    have valid : (0x10000 + (h - 0xD800) * 0x400 + (l - 0xDC00)).isValidChar := by
      unfold Nat.isValidChar
      omega
    have four : (Char.ofNat (0x10000 + (h - 0xD800) * 0x400 + (l - 0xDC00))).utf8Size = 4 := by
      rw [Char.utf8Size_eq_four_iff, UInt32.lt_iff_toNat_lt]
      have read := toNat_ofNat valid
      rw [Char.toNat] at read
      rw [read]
      have : (0xffff : UInt32).toNat = 0xffff := rfl
      omega
    rw [scalars, if_pos pair, List.map_cons, List.sum_cons, four]
    simp only [List.length_cons]
    omega
  | case4 h l rest apart ih =>
    have positive := Char.utf8Size_pos (scalar h)
    rw [scalars, if_neg apart, List.map_cons, List.sum_cons, List.length_cons]
    omega

/-- A text has no more characters than code units. -/
theorem scalars_length_le (s : List Nat) : (scalars s).length ≤ s.length := by
  induction s using scalars.induct with
  | case1 => exact le_refl _
  | case2 c => exact le_refl _
  | case3 h l rest pair ih =>
    rw [scalars, if_pos pair, List.length_cons, List.length_cons, List.length_cons]
    omega
  | case4 h l rest apart ih =>
    rw [scalars, if_neg apart, List.length_cons, List.length_cons]
    omega

theorem hasLone_append {a : List Nat} (b : List Nat)
    (closed : ∀ c, a.getLast? = some c → isHigh c = false) :
    hasLone (a ++ b) = (hasLone a || hasLone b) := by
  induction a using hasLone.induct with
  | case1 => rfl
  | case2 c =>
    have low := closed c rfl
    cases b with
    | nil => simp [hasLone]
    | cons d b => simp [hasLone, low]
  | case3 h l rest pair ih =>
    have later := ih fun c last => closed c (by
      cases rest with
      | nil => cases last
      | cons d rest => simpa using last)
    rw [List.cons_append, List.cons_append, hasLone, if_pos pair, hasLone, if_pos pair, later]
  | case4 h l rest apart ih =>
    have later := ih fun c last => closed c (by rw [List.getLast?_cons_cons]; exact last)
    rw [List.cons_append, List.cons_append, hasLone, if_neg apart, hasLone, if_neg apart,
      ← List.cons_append, later, Bool.or_assoc]

/-- No line ends in the first half of a pair, unless it is the last. -/
theorem closed_of_terminator {run terminator : List Nat} (ends : terminator ∈ [[13, 10], [13], [10]]) :
    ∀ c, (run ++ terminator).getLast? = some c → isHigh c = false := by
  intro c last
  rw [List.getLast?_append_of_ne_nil _ (terminator_ne_nil ends)] at last
  simp only [List.mem_cons, List.not_mem_nil, or_false] at ends
  rcases ends with rfl | rfl | rfl <;> cases last <;> decide

section Slices

variable {text : List Nat} {parts : List (List Nat)}

/-- The characters of a text are those of its lines. -/
theorem Cut.points (cut : Cut text parts) :
    (parts.map fun part => (scalars part).length).sum = (scalars text).length := by
  induction cut with
  | nil => rfl
  | rest _ _ => simp
  | line _ ends _ _ ih =>
    rw [scalars_append _ (closed_of_terminator ends), List.length_append, List.map_cons, List.sum_cons, ih]

/-- The bytes of a text are those of its lines. -/
theorem Cut.bytes (cut : Cut text parts) :
    (parts.map fun part => (encodeUtf8 part).size).sum = (encodeUtf8 text).size := by
  induction cut with
  | nil => rfl
  | rest _ _ => simp
  | line _ ends _ _ ih =>
    rw [encodeUtf8_append _ (closed_of_terminator ends), ByteArray.size_append, List.map_cons,
      List.sum_cons, ih]

/-- Each range of the bytes gives the bytes of its line. -/
theorem Cut.slices (cut : Cut text parts) (front : ByteArray) :
    List.Forall₂ (fun range part =>
        (front ++ encodeUtf8 text).extract range.1 range.2 = encodeUtf8 part)
      (ranges (fun part => (encodeUtf8 part).size) front.size parts) parts := by
  induction cut generalizing front with
  | nil => exact .nil
  | rest _ _ => exact .cons (ByteArray.extract_append_eq_right rfl rfl) .nil
  | @line run terminator text parts _ ends _ _ ih =>
    have closed := @closed_of_terminator run terminator ends
    have split := encodeUtf8_append text closed
    refine .cons ?_ ?_
    · have own := ByteArray.extract_append_size_add (a := front)
        (b := encodeUtf8 (run ++ terminator) ++ encodeUtf8 text) (i := 0)
        (j := (encodeUtf8 (run ++ terminator)).size)
      rw [Nat.add_zero, ByteArray.extract_append_eq_left rfl] at own
      rw [split]
      exact own
    · have later := ih (front ++ encodeUtf8 (run ++ terminator))
      rw [ByteArray.size_append, ByteArray.append_assoc, ← split] at later
      exact later

/-- The lines of a well-formed text are well formed. -/
theorem Cut.wellFormed (cut : Cut text parts) (formed : WellFormed text) :
    ∀ part ∈ parts, WellFormed part := by
  induction cut with
  | nil => simp
  | rest _ _ => simpa using formed
  | line _ ends _ _ ih =>
    rw [← hasLone_iff, hasLone_append _ (closed_of_terminator ends), Bool.or_eq_false_iff] at formed
    intro part member
    rcases List.mem_cons.mp member with rfl | later
    · exact (hasLone_iff _).mp formed.1
    · exact ih ((hasLone_iff _).mp formed.2) part later

end Slices

end Foundation.Lines
