import LedgerDesk.Agents.Canonical
import LedgerDesk.Foundation.Delimited
import LedgerDesk.Foundation.JsonText

/-!
# Reading the texts back

A quoted string, and the text of a number, each leave only one thing they can be the text of.
-/
namespace LedgerDesk.Agents

open Foundation

/-! ### Strings -/

def hexVal (c : Char) : Nat := if c.toNat < 58 then c.toNat - 48 else c.toNat - 87

/-- The character a text begins with, and what follows its code. -/
def unquote : List Char → Option (Char × List Char)
  | '\\' :: 'u' :: _ :: _ :: high :: low :: rest =>
    some (Char.ofNat (16 * hexVal high + hexVal low), rest)
  | '\\' :: c :: rest =>
    let plain := if c = 'b' then Char.ofNat 8 else if c = 't' then Char.ofNat 9
      else if c = 'n' then Char.ofNat 10 else if c = 'f' then Char.ofNat 12
      else if c = 'r' then Char.ofNat 13 else c
    some (plain, rest)
  | c :: rest => some (c, rest)
  | [] => none

theorem hexVal_hexDigit : ∀ n < 16, hexVal (hexDigit n) = n := by decide

theorem unquote_quoteChar (c : Char) (rest : List Char) :
    unquote (quoteChar c ++ rest) = some (c, rest) := by
  have named : ∀ n, c.toNat = n → c = Char.ofNat n := by
    rintro n rfl
    exact (Char.ofNat_toNat c).symm
  rw [quoteChar]
  split
  · next same => simp [unquote, same]
  split
  · next same => simp [unquote, same]
  split
  · next same => simp [unquote, named _ same]
  split
  · next same => simp [unquote, named _ same]
  split
  · next same => simp [unquote, named _ same]
  split
  · next same => simp [unquote, named _ same]
  split
  · next same => simp [unquote, named _ same]
  split
  · next control =>
    have high := hexVal_hexDigit (c.toNat / 16) (by omega)
    have low := hexVal_hexDigit (c.toNat % 16) (by omega)
    have whole : 16 * (c.toNat / 16) + c.toNat % 16 = c.toNat := by omega
    simp [unquote, high, low, whole]
  · next notQuote notEscape _ _ _ _ _ _ =>
    rw [List.singleton_append, unquote.eq_def]
    split <;> simp_all

theorem quoteChar_readable (c d : Char) (rest rest' : List Char)
    (same : quoteChar c ++ rest = quoteChar d ++ rest') : c = d ∧ rest = rest' := by
  have decoded := unquote_quoteChar c rest
  rw [same, unquote_quoteChar d rest'] at decoded
  simpa [eq_comm] using decoded

theorem quoteChar_opens (c : Char) : ∃ e tail, quoteChar c = e :: tail ∧ e ≠ '"' := by
  rw [quoteChar]
  split
  · exact ⟨_, _, rfl, by decide⟩
  repeat'
    split
    · exact ⟨_, _, rfl, by decide⟩
  · next notQuote _ _ _ _ _ _ _ => exact ⟨c, [], rfl, notQuote⟩

theorem quote_toList (text : String) :
    (quote text).toList = '"' :: text.toList.flatMap quoteChar ++ ['"'] := by
  rw [quote, String.toList_ofList]

theorem quote_opens (text : String) : ∃ tail, (quote text).toList = '"' :: tail :=
  ⟨_, by rw [quote_toList, List.cons_append]⟩

theorem quote_told {s t : String} {rest rest' : List Char}
    (same : (quote s).toList ++ rest = (quote t).toList ++ rest') : s = t ∧ rest = rest' := by
  simp only [quote_toList, List.cons_append, List.append_assoc, List.cons.injEq, true_and] at same
  obtain ⟨chars, later⟩ := coded_told quoteChar_readable quoteChar_opens same
  exact ⟨String.toList_inj.mp chars, later⟩

/-! ### Integers -/

def inNumeral (c : Char) : Bool := c.isDigit || c == '-'

theorem repr_digit {n : Nat} {c : Char} (member : c ∈ n.repr.toList) : c.isDigit = true :=
  Nat.isDigit_of_mem_toDigits (b := 10) (n := n) (by decide) (by decide) (by simpa using member)

theorem negSucc_toString (n : Nat) :
    (toString (Int.negSucc n)).toList = '-' :: (n + 1).repr.toList := by
  change ("-" ++ (n + 1).repr).toList = _
  rw [String.toList_append]
  rfl

/-- A sign, if there is one, and digits. -/
theorem integer_text (n : Int) :
    (toString n).toList = (if n < 0 then ['-'] else []) ++ n.natAbs.repr.toList := by
  cases n with
  | ofNat n => rfl
  | negSucc n =>
    rw [negSucc_toString, if_pos (Int.negSucc_lt_zero n)]
    rfl

theorem integer_inside (n : Int) : ∀ c ∈ (toString n).toList, inNumeral c = true := by
  intro c member
  rw [integer_text] at member
  rcases List.mem_append.mp member with sign | digit
  · split at sign
    · rw [List.mem_singleton.mp sign]
      rfl
    · cases sign
  · rw [inNumeral, repr_digit digit, Bool.true_or]

theorem repr_injective {m n : Nat} (same : m.repr.toList = n.repr.toList) : m = n := by
  have digits : Nat.toDigits 10 m = Nat.toDigits 10 n := by simpa using same
  rw [← Nat.ofDigitChars_toDigits (b := 10) (n := m) (by decide) (by decide), digits,
    Nat.ofDigitChars_toDigits (by decide) (by decide)]

theorem repr_opens (n : Nat) : ∃ c tail, n.repr.toList = c :: tail ∧ c.isDigit = true := by
  cases text : n.repr.toList with
  | nil => exact absurd (String.toList_eq_nil_iff.mp text) Nat.repr_ne_empty
  | cons c tail =>
    refine ⟨c, tail, rfl, repr_digit (n := n) ?_⟩
    rw [text]
    exact List.mem_cons_self

theorem integer_opens (n : Int) :
    ∃ c tail, (toString n).toList = c :: tail ∧ JsonText.opensNumber c = true := by
  rw [integer_text]
  split
  · exact ⟨'-', _, rfl, rfl⟩
  · obtain ⟨c, tail, text, digit⟩ := repr_opens n.natAbs
    exact ⟨c, tail, by rw [text, List.nil_append], by rw [JsonText.opensNumber, digit, Bool.true_or]⟩

theorem integer_injective (m n : Int) (same : (toString m).toList = (toString n).toList) :
    m = n := by
  have unsigned : ∀ (m n : Nat), n.repr.toList ≠ '-' :: m.repr.toList := by
    intro m n clash
    have sign : '-' ∈ n.repr.toList := by
      rw [clash]
      exact List.mem_cons_self
    exact absurd (repr_digit sign) (by decide)
  rw [integer_text, integer_text] at same
  split at same <;> split at same
  · have digits := repr_injective (List.append_cancel_left same)
    omega
  · exact absurd same.symm (unsigned m.natAbs n.natAbs)
  · exact absurd same (unsigned n.natAbs m.natAbs)
  · have digits := repr_injective same
    omega

end LedgerDesk.Agents
