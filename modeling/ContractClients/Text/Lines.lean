/-!
# Lines and pieces of text

A text is cut at separator characters and nowhere else: a carriage return, a
form feed or a Unicode line separator stays inside its line. Cutting never
returns an empty list, so a text without separators is one piece.
-/

set_option autoImplicit false

namespace ContractClients.Text

def pieces (separates : Char → Bool) : List Char → List (List Char)
  | [] => [[]]
  | c :: rest =>
    if separates c then [] :: pieces separates rest
    else match pieces separates rest with
      | [] => [[c]]
      | piece :: others => (c :: piece) :: others

def lines (text : String) : List String :=
  (pieces (· == '\n') text.toList).map String.ofList

def unlines (parts : List String) : String := "\n".intercalate parts

def spaces (width : Nat) : String := String.ofList (List.replicate width ' ')

def indentation (width : Int) : String := spaces width.toNat

def indentLine (margin line : String) : String :=
  if line.isEmpty then line else margin ++ line

theorem pieces_ne_nil (separates : Char → Bool) (text : List Char) :
    pieces separates text ≠ [] := by
  cases text with
  | nil => simp [pieces]
  | cons c rest =>
    rw [pieces]
    split
    · simp
    · split <;> simp

theorem pieces_cons (separates : Char → Bool) {c : Char} {rest piece : List Char}
    {others : List (List Char)} (hc : separates c = false)
    (h : pieces separates rest = piece :: others) :
    pieces separates (c :: rest) = (c :: piece) :: others := by
  rw [pieces, h]
  simp [hc]

theorem pieces_eq_splitOnP (separates : Char → Bool) (text : List Char) :
    pieces separates text = text.splitOnP separates := by
  induction text with
  | nil => rw [pieces, List.splitOnP_nil]
  | cons c rest ih =>
    rw [pieces, List.splitOnP_cons_eq_if_modifyHead, ih]
    split
    · rfl
    · obtain ⟨piece, others, hrest⟩ :=
        List.exists_cons_of_ne_nil (List.splitOnP_ne_nil separates rest)
      rw [hrest, List.modifyHead_cons]

theorem pieces_append_cons (separates : Char → Bool) {c : Char} (h : separates c = true)
    (first second : List Char) :
    pieces separates (first ++ c :: second) =
      pieces separates first ++ pieces separates second := by
  simp only [pieces_eq_splitOnP, List.splitOnP_append_cons first second h]

theorem pieces_eq_singleton {separates : Char → Bool} {text : List Char}
    (h : ∀ c ∈ text, separates c = false) : pieces separates text = [text] := by
  rw [pieces_eq_splitOnP, List.splitOnP_eq_singleton h]

end ContractClients.Text
