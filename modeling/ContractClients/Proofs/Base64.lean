import ContractClients.Client.Embedded
import ContractClients.TypeScript.Code

/-!
# Reading Base64 back

A reader for the standard alphabet: groups of four characters, of which only
the last may be padded. It gives back the bytes that were written, and what was
written can stand in a string literal as it is.
-/

set_option autoImplicit false

namespace ContractClients.Text

def base64Alphabet : List Char :=
  "ABCDEFGHIJKLMNOPQRSTUVWXYZabcdefghijklmnopqrstuvwxyz0123456789+/".toList

def base64Value? (c : Char) : Option Nat := base64Alphabet.findIdx? (· == c)

def readGroup (a b c d : Char) : Option (List UInt8) := do
  let x ← base64Value? a
  let y ← base64Value? b
  if c = '=' ∧ d = '=' then return [.ofNat (x * 4 + y / 16)]
  let z ← base64Value? c
  if d = '=' then return [.ofNat (x * 4 + y / 16), .ofNat (y % 16 * 16 + z / 4)]
  let w ← base64Value? d
  return [.ofNat (x * 4 + y / 16), .ofNat (y % 16 * 16 + z / 4), .ofNat (z % 4 * 64 + w)]

def readBase64Chars : List Char → Option (List UInt8)
  | [] => some []
  | a :: b :: c :: d :: rest => do
    let bytes ← readGroup a b c d
    if d = '=' ∧ rest ≠ [] then none
    return bytes ++ (← readBase64Chars rest)
  | _ => none

def readBase64 (text : String) : Option (List UInt8) := readBase64Chars text.toList

theorem base64Value_char : ∀ value < 64, base64Value? (base64Char value) = some value := by decide

theorem base64Char_ne_pad : ∀ value < 64, base64Char value ≠ '=' := by decide

theorem escape_base64Char :
    ∀ value < 64, TypeScript.escapeChar (base64Char value) = [base64Char value] := by decide

theorem readGroup_one (a : UInt8) :
    readGroup (base64Char (a.toNat / 4)) (base64Char (a.toNat % 4 * 16)) '=' '=' = some [a] := by
  have ha := a.toNat_lt
  have hx := base64Value_char (a.toNat / 4) (by omega)
  have hy := base64Value_char (a.toNat % 4 * 16) (by omega)
  have hfirst : a.toNat / 4 * 4 + a.toNat % 4 * 16 / 16 = a.toNat := by omega
  simp only [readGroup, Option.bind_eq_bind, hx, hy, Option.bind_some, and_self, if_true,
    Option.pure_def, hfirst, UInt8.ofNat_toNat]

theorem readGroup_two (a b : UInt8) :
    readGroup (base64Char (a.toNat / 4)) (base64Char (a.toNat % 4 * 16 + b.toNat / 16))
      (base64Char (b.toNat % 16 * 4)) '=' = some [a, b] := by
  have ha := a.toNat_lt
  have hb := b.toNat_lt
  have hx := base64Value_char (a.toNat / 4) (by omega)
  have hy := base64Value_char (a.toNat % 4 * 16 + b.toNat / 16) (by omega)
  have hz := base64Value_char (b.toNat % 16 * 4) (by omega)
  have hpad := base64Char_ne_pad (b.toNat % 16 * 4) (by omega)
  have hfirst : a.toNat / 4 * 4 + (a.toNat % 4 * 16 + b.toNat / 16) / 16 = a.toNat := by omega
  have hsecond : (a.toNat % 4 * 16 + b.toNat / 16) % 16 * 16 + b.toNat % 16 * 4 / 4 = b.toNat := by
    omega
  simp only [readGroup, Option.bind_eq_bind, hx, hy, hz, Option.bind_some, hpad, false_and,
    if_false, if_true, Option.pure_def, hfirst, hsecond, UInt8.ofNat_toNat]

theorem readGroup_three (a b c : UInt8) :
    readGroup (base64Char (a.toNat / 4)) (base64Char (a.toNat % 4 * 16 + b.toNat / 16))
      (base64Char (b.toNat % 16 * 4 + c.toNat / 64)) (base64Char (c.toNat % 64)) =
      some [a, b, c] := by
  have ha := a.toNat_lt
  have hb := b.toNat_lt
  have hc := c.toNat_lt
  have hx := base64Value_char (a.toNat / 4) (by omega)
  have hy := base64Value_char (a.toNat % 4 * 16 + b.toNat / 16) (by omega)
  have hz := base64Value_char (b.toNat % 16 * 4 + c.toNat / 64) (by omega)
  have hw := base64Value_char (c.toNat % 64) (by omega)
  have hpad := base64Char_ne_pad (c.toNat % 64) (by omega)
  have hfirst : a.toNat / 4 * 4 + (a.toNat % 4 * 16 + b.toNat / 16) / 16 = a.toNat := by omega
  have hsecond : (a.toNat % 4 * 16 + b.toNat / 16) % 16 * 16 +
      (b.toNat % 16 * 4 + c.toNat / 64) / 4 = b.toNat := by omega
  have hthird : (b.toNat % 16 * 4 + c.toNat / 64) % 4 * 64 + c.toNat % 64 = c.toNat := by omega
  simp only [readGroup, Option.bind_eq_bind, hx, hy, hz, hw, Option.bind_some, hpad, and_false,
    if_false, Option.pure_def, hfirst, hsecond, hthird, UInt8.ofNat_toNat]

theorem readBase64Chars_written (bytes : List UInt8) :
    readBase64Chars (base64Chars bytes) = some bytes := by
  fun_induction base64Chars bytes with
  | case1 => rfl
  | case2 a => simp [readBase64Chars, readGroup_one]
  | case3 a b => simp [readBase64Chars, readGroup_two]
  | case4 a b c rest ih =>
    have hlast := base64Char_ne_pad (c.toNat % 64) (by omega)
    simp [readBase64Chars, readGroup_three, hlast, ih]

theorem readBase64_base64 (bytes : List UInt8) : readBase64 (base64 bytes) = some bytes := by
  rw [readBase64, base64, String.toList_ofList, readBase64Chars_written]

/-- Every character that is written stands for itself in a literal. -/
theorem escape_base64Chars (bytes : List UInt8) :
    (base64Chars bytes).flatMap TypeScript.escapeChar = base64Chars bytes := by
  have hpad : TypeScript.escapeChar '=' = ['='] := by decide
  fun_induction base64Chars bytes with
  | case1 => rfl
  | case2 a =>
    have ha := a.toNat_lt
    simp [hpad, escape_base64Char (a.toNat / 4) (by omega),
      escape_base64Char (a.toNat % 4 * 16) (by omega)]
  | case3 a b =>
    have ha := a.toNat_lt
    have hb := b.toNat_lt
    simp [hpad, escape_base64Char (a.toNat / 4) (by omega),
      escape_base64Char (a.toNat % 4 * 16 + b.toNat / 16) (by omega),
      escape_base64Char (b.toNat % 16 * 4) (by omega)]
  | case4 a b c rest ih =>
    have ha := a.toNat_lt
    have hb := b.toNat_lt
    have hc := c.toNat_lt
    simp [ih, escape_base64Char (a.toNat / 4) (by omega),
      escape_base64Char (a.toNat % 4 * 16 + b.toNat / 16) (by omega),
      escape_base64Char (b.toNat % 16 * 4 + c.toNat / 64) (by omega),
      escape_base64Char (c.toNat % 64) (by omega)]

theorem quote_base64 (bytes : List UInt8) :
    TypeScript.quote (base64 bytes) = "'" ++ base64 bytes ++ "'" := by
  apply String.toList_inj.mp
  simp [TypeScript.quote, TypeScript.quoteChars, base64, escape_base64Chars]

end ContractClients.Text
