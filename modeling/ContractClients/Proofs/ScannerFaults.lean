import ContractClients.Proofs.FailingActions
import ContractClients.Yaml.TokenStream

/-!
# Faults of the scanner

Reading a text fails where the text is malformed. There are two other faults:
an escape gives the code of a character that does not exist, and a number in a
directive has too many digits. Both can be pointed at in the text, since a
cursor never leaves the text it was put into.
-/

set_option autoImplicit false
set_option mvcgen.warning false

namespace ContractClients.Yaml

open Std.Do

inductive ScanFault (text : List Char) : Fault → Prop
  | malformed : ScanFault text .malformed
  | charCode {digits : List Char} {fault : Fault} (h : '\\' :: 'U' :: digits <:+: text)
      (hlength : digits.length = 8) (hhex : ∀ c ∈ digits, isHex c = true)
      (hcode : Reading.charOfCode (natOfDigits 16 digits) = .error fault) : ScanFault text fault
  | longNumber {digits : List Char} (h : digits <:+: text)
      (hdigits : ∀ c ∈ digits, c.isDigit = true) (hlength : maxDecimalDigits < digits.length) :
      ScanFault text .outOfRange

theorem digitValue_hex {c : Char} (h : isHex c = true) : digitValue c < 16 := by
  simp only [isHex, Char.isDigit, Bool.or_eq_true, Bool.and_eq_true, decide_eq_true_eq,
    Char.le_def, UInt32.le_iff_toNat_le, ge_iff_le] at h
  simp only [digitValue, Char.isDigit, Char.isLower, Char.toNat, Bool.and_eq_true,
    decide_eq_true_eq, UInt32.le_iff_toNat_le, ge_iff_le]
  have hzero : '0'.val.toNat = 48 := rfl
  have hnine : '9'.val.toNat = 57 := rfl
  have ha : 'a'.val.toNat = 97 := rfl
  have hf : 'f'.val.toNat = 102 := rfl
  have hz : 'z'.val.toNat = 122 := rfl
  have hA : 'A'.val.toNat = 65 := rfl
  have hF : 'F'.val.toNat = 70 := rfl
  split_ifs <;> omega

theorem natOfDigits_snoc (base : Nat) (digits : List Char) (c : Char) :
    natOfDigits base (digits ++ [c]) = natOfDigits base digits * base + digitValue c := by
  rw [natOfDigits, List.foldl_append]
  rfl

theorem natOfDigits_lt {digits : List Char} (h : ∀ c ∈ digits, isHex c = true) :
    natOfDigits 16 digits < 16 ^ digits.length := by
  induction digits using List.reverseRecOn with
  | nil => decide
  | append_singleton rest c ih =>
    have hrest := ih fun d hd => h d (List.mem_append_left _ hd)
    have hc := digitValue_hex (h c (by simp))
    rw [natOfDigits_snoc, List.length_append, List.length_singleton, pow_succ]
    omega

namespace Cursor

def Within (text : List Char) (cursor : Cursor) : Prop := cursor.rest <:+ text

theorem next_rest (cursor : Cursor) : cursor.next.rest = cursor.rest.tail := by
  unfold next
  split
  · simp_all
  · split_ifs <;> simp_all

theorem skip_rest (count : Nat) (cursor : Cursor) :
    (cursor.skip count).rest = cursor.rest.drop count := by
  induction count generalizing cursor with
  | zero => rfl
  | succ count ih => rw [skip, ih, next_rest, List.drop_tail]

theorem rest_of_char {cursor : Cursor} {c : Char} (h : cursor.char = c) (hc : c ≠ endMark) :
    ∃ later, cursor.rest = c :: later := by
  rw [Cursor.char] at h
  cases hrest : cursor.rest with
  | nil => simp [hrest] at h; exact absurd h.symm hc
  | cons d later =>
    rw [hrest] at h
    exact ⟨later, congrArg (· :: later) h⟩

theorem Within.skip {text : List Char} {cursor : Cursor} (h : cursor.Within text) (count : Nat) :
    (cursor.skip count).Within text := by
  rw [Within, skip_rest]
  exact (List.drop_suffix count cursor.rest).trans h

/-- What stands in front of the cursor after it moves over a character. -/
theorem Within.char_skip {text : List Char} {cursor : Cursor} (h : cursor.Within text) {c : Char}
    (hchar : cursor.char = c) (hc : c ≠ endMark) : c :: (cursor.skip 1).rest <:+ text := by
  obtain ⟨later, hrest⟩ := rest_of_char hchar hc
  rw [Within, hrest] at h
  rwa [skip_rest, hrest, List.drop_one, List.tail_cons]

end Cursor

namespace Reading

variable {text : List Char}

abbrev Stays (text : List Char) {α : Type} (read : Reading α) : Prop :=
  ⦃fun cursor => ⌜cursor.Within text⌝⦄ read
    ⦃post⟨fun _ cursor => ⌜cursor.Within text⌝, fun fault => ⌜ScanFault text fault⌝⟩⦄

@[spec] theorem peek_stays (offset : Nat) : Stays text (peek offset) := by
  mvcgen [peek]

@[spec] theorem skip_stays (count : Nat) : Stays text (skip count) := by
  mvcgen [skip]
  exact Cursor.Within.skip ‹_› count

@[spec] theorem reject_stays {α : Type} : Stays text (reject : Reading α) := by
  mvcgen [reject, -Spec.throw_MonadExcept]
  exact ScanFault.malformed

@[spec] theorem takeWhile_stays (holds : Char → Bool) : Stays text (takeWhile holds) := by
  mvcgen [takeWhile]

@[spec] theorem takeExactly_stays (count : Nat) (holds : Char → Bool) :
    Stays text (takeExactly count holds) := by
  mvcgen [takeExactly]

@[spec] theorem require_stays (holds : Char → Bool) : Stays text (require holds) := by
  mvcgen [require]

@[spec] theorem lineBreak_stays : Stays text lineBreak := by
  mvcgen [lineBreak]

@[spec] theorem ignoredLine_stays : Stays text ignoredLine := by
  mvcgen [ignoredLine]

@[spec] theorem furtherBreaks_stays (fuel : Nat) : Stays text (furtherBreaks fuel) := by
  induction fuel with
  | zero => mvcgen [furtherBreaks]
  | succ fuel ih => mvcgen [furtherBreaks, ih]

@[spec] theorem quotedGap_stays : Stays text quotedGap := by
  mvcgen [quotedGap]

theorem charOfCode_ok {code : Nat} (h : code ≤ 0x10FFFF) : ∃ c, charOfCode code = .ok c := by
  rw [charOfCode, if_neg (by omega), if_neg (by omega)]
  split
  · exact ⟨_, rfl⟩
  · exact ⟨_, rfl⟩

theorem codeLengths_cases {c : Char} {length : Nat} (h : codeLengths.lookup c = some length) :
    c = 'U' ∧ length = 8 ∨ length ≤ 4 := by
  simp only [codeLengths, List.lookup] at h
  split at h
  · right
    simp at h
    omega
  split at h
  · right
    simp at h
    omega
  split at h
  · left
    simp at h
    simp_all
  · cases h

/-- Escapes of two and four digits give characters that exist. -/
theorem escape_fault {cursor : Cursor} {length : Nat} {digits : List Char} {fault : Fault}
    (h : '\\' :: cursor.rest <:+ text) (hlength : codeLengths.lookup cursor.char = some length)
    (htaken : digits = (cursor.skip 1).rest.take length) (hdigits : digits.length = length)
    (hhex : ∀ c ∈ digits, isHex c = true)
    (hcode : charOfCode (natOfDigits 16 digits) = .error fault) : ScanFault text fault := by
  have hbound := natOfDigits_lt hhex
  rcases codeLengths_cases hlength with ⟨hmark, rfl⟩ | hshort
  · obtain ⟨later, hrest⟩ := Cursor.rest_of_char hmark (by decide)
    rw [Cursor.skip_rest, hrest, List.drop_one, List.tail_cons] at htaken
    rw [hrest] at h
    have hfront : '\\' :: 'U' :: digits <+: '\\' :: 'U' :: later := by
      rw [htaken]
      simpa using List.take_prefix 8 later
    exact .charCode (hfront.isInfix.trans h.isInfix) hdigits hhex hcode
  · have hsmall : natOfDigits 16 digits ≤ 0x10FFFF := by
      have hpow : 16 ^ digits.length ≤ 16 ^ 4 := Nat.pow_le_pow_right (by norm_num) (by omega)
      omega
    obtain ⟨c, hc⟩ := charOfCode_ok hsmall
    rw [hc] at hcode
    cases hcode

@[spec] theorem charOfCode_triple (code : Nat) :
    ⦃⌜True⌝⦄ charOfCode code
      ⦃post⟨fun c => ⌜charOfCode code = .ok c⌝, fun fault => ⌜charOfCode code = .error fault⌝⟩⦄ :=
  except_triple (charOfCode code)

theorem escape_stays :
    ⦃fun cursor => ⌜ '\\' :: cursor.rest <:+ text⌝⦄ escape
      ⦃post⟨fun _ cursor => ⌜cursor.Within text⌝, fun fault => ⌜ScanFault text fault⌝⟩⦄ := by
  have hwithin : ∀ cursor : Cursor, '\\' :: cursor.rest <:+ text → cursor.Within text :=
    fun cursor h => (List.suffix_cons '\\' cursor.rest).trans h
  mvcgen [escape, peek, skip, takeExactly, reject, -peek_stays, -skip_stays, -takeExactly_stays,
    -reject_stays, -Spec.throw_MonadExcept]
  case vc1.h_1 => exact (hwithin _ ‹_›).skip 1
  case vc2.h_2.isTrue.success => exact ((hwithin _ ‹_›).skip 1).skip _
  case vc3.h_2.isTrue.except.handle hcheck _ _ =>
    intro hcode
    simp only [Bool.and_eq_true, beq_iff_eq, List.all_eq_true] at hcheck
    exact escape_fault ‹_› ‹_› rfl hcheck.1 hcheck.2 hcode
  case vc5.h_3.isTrue.pre => exact hwithin _ ‹_›
  all_goals exact .malformed

@[spec] theorem quotedRun_stays (double : Bool) (fuel : Nat) :
    Stays text (quotedRun double fuel) := by
  induction fuel with
  | zero => mvcgen [quotedRun]
  | succ fuel ih =>
    have hescape := @escape_stays text
    mvcgen [quotedRun, ih, hescape, peek, skip, -peek_stays, -skip_stays]
    case vc4.succ.post.success.isFalse.isFalse.isTrue.pre hslash _ =>
      simp only [Bool.and_eq_true, beq_iff_eq] at hslash
      exact Cursor.Within.char_skip ‹_› hslash.2 (by decide)
    all_goals exact Cursor.Within.skip ‹_› _

@[spec] theorem quotedRest_stays (double : Bool) (fuel : Nat) :
    Stays text (quotedRest double fuel) := by
  induction fuel with
  | zero => mvcgen [quotedRest]
  | succ fuel ih => mvcgen [quotedRest, ih]

@[spec] theorem quotedScalar_stays (double : Bool) : Stays text (quotedScalar double) := by
  mvcgen [quotedScalar]

@[spec] theorem chomping?_stays : Stays text chomping? := by
  mvcgen [chomping?]

@[spec] theorem increment?_stays : Stays text increment? := by
  mvcgen [increment?]

@[spec] theorem blockHeader_stays : Stays text blockHeader := by
  mvcgen [blockHeader]

@[spec] theorem skipIndent_stays (indent : Nat) : Stays text (skipIndent indent) := by
  mvcgen [skipIndent]

@[spec] theorem blockBreaks_stays (indent fuel : Nat) : Stays text (blockBreaks indent fuel) := by
  induction fuel with
  | zero => mvcgen [blockBreaks]
  | succ fuel ih => mvcgen [blockBreaks, ih]

@[spec] theorem leadingBreaks_stays (fuel widest : Nat) :
    Stays text (leadingBreaks fuel widest) := by
  induction fuel generalizing widest with
  | zero => mvcgen [leadingBreaks]
  | succ fuel ih => mvcgen [leadingBreaks, ih]

@[spec] theorem atText_stays (indent : Nat) : Stays text (atText indent) := by
  mvcgen [atText]

@[spec] theorem blockLines_stays (folded : Bool) (indent fuel : Nat) (breaks : List (List Char)) :
    Stays text (blockLines folded indent fuel breaks) := by
  induction fuel generalizing breaks with
  | zero => mvcgen [blockLines]
  | succ fuel ih => mvcgen [blockLines, ih]

@[spec] theorem blockScalar_stays (folded : Bool) (parentIndent : Int) :
    Stays text (blockScalar folded parentIndent) := by
  mvcgen [blockScalar]

@[spec] theorem plainBreaks_stays (fuel : Nat) : Stays text (plainBreaks fuel) := by
  induction fuel with
  | zero => mvcgen [plainBreaks]
  | succ fuel ih => mvcgen [plainBreaks, ih]

@[spec] theorem plainGap_stays : Stays text plainGap := by
  mvcgen [plainGap]

@[spec] theorem plainParts_stays (inFlow : Bool) (indent : Int) (fuel : Nat)
    (before : List Char) : Stays text (plainParts inFlow indent fuel before) := by
  induction fuel generalizing before with
  | zero => mvcgen [plainParts]
  | succ fuel ih => mvcgen [plainParts, ih]

@[spec] theorem plainScalar_stays (inFlow : Bool) (indent : Int) :
    Stays text (plainScalar inFlow indent) := by
  mvcgen [plainScalar]

@[spec] theorem word_stays : Stays text word := by
  mvcgen [word]

@[spec] theorem anchorName_stays : Stays text anchorName := by
  mvcgen [anchorName]

@[spec] theorem percentBytes_stays (fuel : Nat) : Stays text (percentBytes fuel) := by
  induction fuel with
  | zero => mvcgen [percentBytes]
  | succ fuel ih => mvcgen [percentBytes, ih]

@[spec] theorem percentText_stays : Stays text percentText := by
  mvcgen [percentText]

@[spec] theorem tagParts_stays (fuel : Nat) : Stays text (tagParts fuel) := by
  induction fuel with
  | zero => mvcgen [tagParts]
  | succ fuel ih => mvcgen [tagParts, ih]

@[spec] theorem tagText_stays : Stays text tagText := by
  mvcgen [tagText]

@[spec] theorem tagHandle_stays : Stays text tagHandle := by
  mvcgen [tagHandle]

theorem longNumber_fault {cursor : Cursor} (h : cursor.Within text)
    (hlength : maxDecimalDigits < (cursor.rest.takeWhile Char.isDigit).length) :
    ScanFault text .outOfRange := by
  have hpart := (List.takeWhile_prefix (l := cursor.rest) Char.isDigit).isInfix.trans h.isInfix
  exact .longNumber hpart (fun _ hc => List.mem_takeWhile_imp hc) hlength

@[spec] theorem number_stays : Stays text number := by
  mvcgen [number, takeWhile, -takeWhile_stays, -Spec.throw_MonadExcept]
  refine longNumber_fault ?_ ‹_›
  assumption

@[spec] theorem versionDirective_stays : Stays text versionDirective := by
  mvcgen [versionDirective]

@[spec] theorem tagDirective_stays : Stays text tagDirective := by
  mvcgen [tagDirective]

@[spec] theorem directive_stays : Stays text directive := by
  mvcgen [directive]

end Reading

def Token.isFault : Token → Bool
  | .fault _ => true
  | _ => false

namespace Scan

variable {text : List Char} {scan : Scan}

def Sound (text : List Char) (scan : Scan) : Prop :=
  scan.cursor.Within text ∧ ∀ token ∈ scan.tokens.toList, token.isFault = false

theorem Sound.emit {token : Token} (h : scan.Sound text) (ht : token.isFault = false) :
    (scan.emit token).Sound text := by
  refine ⟨h.1, ?_⟩
  simpa [Scan.emit, or_imp, forall_and, ht] using h.2

theorem Sound.insert {token : Token} (h : scan.Sound text) (ht : token.isFault = false)
    (position : Nat) : (scan.insert position token).Sound text := by
  refine ⟨h.1, ?_⟩
  intro other hother
  rw [Scan.insert, Array.insertIdxIfInBounds] at hother
  split at hother
  · rw [Array.toList_insertIdx, List.mem_insertIdx (by simpa)] at hother
    rcases hother with rfl | hold
    · exact ht
    · exact h.2 other hold
  · exact h.2 other hother

theorem Sound.unwind (h : scan.Sound text) (column : Int) (fuel : Nat) :
    (unwind column fuel scan).Sound text := by
  induction fuel generalizing scan with
  | zero => exact h
  | succ fuel ih =>
    rw [Scan.unwind]
    split
    · split
      · exact ih (Sound.emit h rfl)
      · exact h
    · exact h

theorem Sound.unwindTo (h : scan.Sound text) (column : Int) :
    (scan.unwindTo column).Sound text := by
  rw [Scan.unwindTo]
  split
  · exact h
  · exact h.unwind column _

end Scan

namespace Scanning

variable {text : List Char}

abbrev Keeps (text : List Char) {α : Type} (action : Scanning α) : Prop :=
  ⦃fun scan => ⌜scan.Sound text⌝⦄ action
    ⦃post⟨fun _ scan => ⌜scan.Sound text⌝, fun fault => ⌜ScanFault text fault⌝⟩⦄

abbrev ReadsToken (text : List Char) (read : Reading Token) : Prop :=
  ⦃fun cursor => ⌜cursor.Within text⌝⦄ read
    ⦃post⟨fun token cursor => ⌜token.isFault = false ∧ cursor.Within text⌝,
      fun fault => ⌜ScanFault text fault⌝⟩⦄

theorem reading_triple {α : Type} {post : α → Prop} {read : Reading α}
    (h : ⦃fun cursor => ⌜cursor.Within text⌝⦄ read
      ⦃post⟨fun value cursor => ⌜post value ∧ cursor.Within text⌝,
        fun fault => ⌜ScanFault text fault⌝⟩⦄) :
    ⦃fun scan => ⌜scan.Sound text⌝⦄ reading read
      ⦃post⟨fun value scan => ⌜post value ∧ scan.Sound text⌝,
        fun fault => ⌜ScanFault text fault⌝⟩⦄ := by
  apply triple_of_run
  intro scan hscan
  have hread := run_of_triple h hscan.1
  rw [reading]
  cases hresult : read scan.cursor with
  | ok pair =>
    rw [hresult] at hread
    exact ⟨hread.1, hread.2, hscan.2⟩
  | error fault =>
    rw [hresult] at hread
    exact hread

theorem reading_keeps {α : Type} {read : Reading α} (h : Reading.Stays text read) :
    Keeps text (reading read) := by
  have hread : ⦃fun cursor => ⌜cursor.Within text⌝⦄ read
      ⦃post⟨fun _ cursor => ⌜True ∧ cursor.Within text⌝,
        fun fault => ⌜ScanFault text fault⌝⟩⦄ := by
    mvcgen [h]
    exact fun hwithin => ⟨trivial, hwithin⟩
  have hreading := reading_triple hread
  mvcgen [hreading]
  exact id

@[spec] theorem skip_keeps (count : Nat) : Keeps text (reading (Reading.skip count)) :=
  reading_keeps (Reading.skip_stays count)

@[spec] theorem takeWhile_keeps (holds : Char → Bool) :
    Keeps text (reading (Reading.takeWhile holds)) :=
  reading_keeps (Reading.takeWhile_stays holds)

@[spec] theorem lineBreak_keeps : Keeps text (reading Reading.lineBreak) :=
  reading_keeps Reading.lineBreak_stays

@[spec] theorem directive_keeps : Keeps text (reading Reading.directive) :=
  reading_keeps Reading.directive_stays

@[spec] theorem readBlockScalar_keeps (folded : Bool) (indent : Int) :
    Keeps text (reading (Reading.blockScalar folded indent)) :=
  reading_keeps (Reading.blockScalar_stays folded indent)

@[spec] theorem readPlainScalar_keeps (inFlow : Bool) (indent : Int) :
    Keeps text (reading (Reading.plainScalar inFlow indent)) :=
  reading_keeps (Reading.plainScalar_stays inFlow indent)

@[spec] theorem emit_keeps {token : Token} (h : token.isFault = false) :
    Keeps text (emit token) := by
  mvcgen [emit]
  exact Scan.Sound.emit ‹_› h

@[spec] theorem setKeyAllowed_keeps (allowed : Bool) : Keeps text (setKeyAllowed allowed) := by
  mvcgen [setKeyAllowed]

@[spec] theorem dropKeys_keeps (dropped : PendingKey → Bool) : Keeps text (dropKeys dropped) := by
  mvcgen [dropKeys, -Spec.throw_MonadExcept]
  exact ScanFault.malformed

@[spec] theorem dropStaleKeys_keeps : Keeps text dropStaleKeys := by
  mvcgen [dropStaleKeys]

@[spec] theorem dropPendingKey_keeps : Keeps text dropPendingKey := by
  mvcgen [dropPendingKey]

@[spec] theorem saveKey_keeps : Keeps text saveKey := by
  mvcgen [saveKey]

@[spec] theorem openBlock_keeps (column position : Nat) {start : Token}
    (h : start.isFault = false) : Keeps text (openBlock column position start) := by
  mvcgen [openBlock]
  exact Scan.Sound.insert ‹_› h position

@[spec] theorem skipGaps_keeps (fuel : Nat) : Keeps text (skipGaps fuel) := by
  induction fuel with
  | zero => mvcgen [skipGaps]
  | succ fuel ih => mvcgen [skipGaps, ih]

@[spec] theorem endBlocks_keeps : Keeps text endBlocks := by
  mvcgen [endBlocks]
  exact Scan.Sound.unwindTo ‹_› _

@[spec] theorem marker_keeps {token : Token} (h : token.isFault = false) :
    Keeps text (marker token) := by
  mvcgen [marker]
  exact fun _ _ => h

@[spec] theorem flowStart_keeps {token : Token} (h : token.isFault = false) :
    Keeps text (flowStart token) := by
  mvcgen [flowStart]
  exact fun _ _ => h

@[spec] theorem flowEnd_keeps {token : Token} (h : token.isFault = false) :
    Keeps text (flowEnd token) := by
  mvcgen [flowEnd]

@[spec] theorem flowEntry_keeps : Keeps text flowEntry := by
  mvcgen [flowEntry]
  exact fun _ _ => rfl

@[spec] theorem openAtSign_keeps {start : Token} (h : start.isFault = false) :
    Keeps text (openAtSign start) := by
  mvcgen [openAtSign, -Spec.throw_MonadExcept]
  exact ScanFault.malformed

@[spec] theorem blockEntry_keeps : Keeps text blockEntry := by
  mvcgen [blockEntry]
  exact fun _ _ => rfl

@[spec] theorem explicitKey_keeps : Keeps text explicitKey := by
  mvcgen [explicitKey]
  exact fun _ _ => rfl

@[spec] theorem value_keeps : Keeps text value := by
  mvcgen [value]
  case vc1.h_1.isTrue.pre | vc6.h_1.isFalse.pre => exact Scan.Sound.insert ‹_› rfl _
  all_goals exact fun _ _ => rfl

@[spec] theorem keyToken_keeps {read : Reading Token} (h : ReadsToken text read) :
    Keeps text (keyToken read) := by
  have hread := reading_triple h
  mvcgen [keyToken, hread]
  case vc4.post.success.post.success.post.success hsound => exact hsound.2
  exact fun _ htoken _ => htoken

@[spec] theorem blockScalar_keeps (folded : Bool) : Keeps text (blockScalar folded) := by
  mvcgen [blockScalar]
  exact fun _ _ => rfl

@[spec] theorem plain_keeps : Keeps text plain := by
  mvcgen [plain]
  exact fun _ _ => rfl

theorem mapped_token {α : Type} {token : α → Token} {read : Reading α}
    (h : Reading.Stays text read) (ht : ∀ value, (token value).isFault = false) :
    ReadsToken text (token <$> read) := by
  mvcgen [h]
  exact fun hwithin => ⟨ht _, hwithin⟩

@[spec] theorem alias_keeps : Keeps text (keyToken (Token.alias <$> Reading.anchorName)) :=
  keyToken_keeps (mapped_token Reading.anchorName_stays fun _ => rfl)

@[spec] theorem anchor_keeps : Keeps text (keyToken (Token.anchor <$> Reading.anchorName)) :=
  keyToken_keeps (mapped_token Reading.anchorName_stays fun _ => rfl)

@[spec] theorem quoted_keeps (double : Bool) :
    Keeps text (keyToken ((Token.scalar · false) <$> Reading.quotedScalar double)) :=
  keyToken_keeps (mapped_token (Reading.quotedScalar_stays double) fun _ => rfl)

@[spec] theorem tag_keeps : Keeps text (keyToken Reading.tag) := by
  apply keyToken_keeps
  mvcgen [Reading.tag]

section Parts

variable {α β : Type}

theorem keeps_bind {action : Scanning α} {next : α → Scanning β} (h : Keeps text action)
    (hn : ∀ value, Keeps text (next value)) : Keeps text (action >>= next) := by
  mvcgen [h, hn]

theorem keeps_get {next : Scan → Scanning β} (h : ∀ scan, Keeps text (next scan)) :
    Keeps text (get >>= next) := by
  mvcgen [h]

theorem keeps_ite {c : Prop} [Decidable c] {first second : Scanning α} (hf : Keeps text first)
    (hs : Keeps text second) : Keeps text (if c then first else second) := by
  mvcgen [hf, hs]

theorem keeps_on {action : Scanning PUnit} (h : Keeps text action) :
    Keeps text (do action; return true) := by
  mvcgen [h]

end Parts

@[spec] theorem step_keeps : Keeps text step := by
  have hmark : ∀ {c : Prop} [Decidable c] {rest : Scanning Bool}, Keeps text rest →
      Keeps text (if c then (do reading Reading.skip; rest) else rest) :=
    fun h => keeps_ite (keeps_bind (skip_keeps 1) fun _ => h) h
  have hunwind : Keeps text (modify fun scan => scan.unwindTo scan.cursor.column) := by
    mvcgen
    exact Scan.Sound.unwindTo ‹_› _
  unfold step
  dsimp only
  refine keeps_get fun _ => keeps_get fun _ => hmark ?_
  refine keeps_get fun _ => keeps_bind (skipGaps_keeps _) fun _ => ?_
  refine keeps_bind dropStaleKeys_keeps fun _ => keeps_bind hunwind fun _ => ?_
  refine keeps_get fun scan => ?_
  refine keeps_ite (keeps_bind endBlocks_keeps fun _ => keeps_bind (emit_keeps rfl) fun _ => ?_) ?_
  · mvcgen
  refine keeps_ite (keeps_bind endBlocks_keeps fun _ => keeps_bind directive_keeps fun _ =>
    keeps_on (emit_keeps rfl)) ?_
  refine keeps_ite (keeps_on (marker_keeps ?_)) ?_
  · split <;> rfl
  refine keeps_ite (keeps_on (flowStart_keeps rfl)) ?_
  refine keeps_ite (keeps_on (flowStart_keeps rfl)) ?_
  refine keeps_ite (flowEnd_keeps rfl) ?_
  refine keeps_ite (flowEnd_keeps rfl) ?_
  refine keeps_ite (keeps_on flowEntry_keeps) ?_
  refine keeps_ite (keeps_on blockEntry_keeps) ?_
  refine keeps_ite (keeps_on explicitKey_keeps) ?_
  refine keeps_ite (keeps_on value_keeps) ?_
  refine keeps_ite (keeps_on alias_keeps) ?_
  refine keeps_ite (keeps_on anchor_keeps) ?_
  refine keeps_ite (keeps_on tag_keeps) ?_
  refine keeps_ite (keeps_on (blockScalar_keeps false)) ?_
  refine keeps_ite (keeps_on (blockScalar_keeps true)) ?_
  refine keeps_ite (keeps_on (quoted_keeps false)) ?_
  refine keeps_ite (keeps_on (quoted_keeps true)) ?_
  refine keeps_ite (keeps_on plain_keeps) (keeps_on ?_)
  mvcgen [-Spec.throw_MonadExcept]
  exact ScanFault.malformed

/-- The fault at the end of what a scan releases. -/
theorem released_faults {scan : Scan} (h : scan.Sound text) {fault fault' : Fault}
    (hf : ScanFault text fault)
    (hmem : Token.fault fault' ∈ scan.releasedTokens ++ [.fault fault]) :
    ScanFault text fault' := by
  rcases List.mem_append.mp hmem with hold | hlast
  · have hclean := h.2 _ (List.mem_of_mem_take hold)
    exact Bool.noConfusion hclean
  · obtain rfl : fault' = fault := Token.fault.inj (List.mem_singleton.mp hlast)
    exact hf

theorem run_faults (fuel : Nat) {scan : Scan} (h : scan.Sound text) {fault : Fault}
    (hmem : Token.fault fault ∈ run fuel scan) : ScanFault text fault := by
  induction fuel generalizing scan with
  | zero => exact Bool.noConfusion (h.2 _ hmem)
  | succ fuel ih =>
    have hstep := run_of_triple step_keeps h
    rw [run] at hmem
    cases hresult : step scan with
    | error fault =>
      rw [hresult] at hstep hmem
      exact released_faults h hstep hmem
    | ok pair =>
      obtain ⟨more, next⟩ := pair
      rw [hresult] at hstep hmem
      cases more with
      | false => exact Bool.noConfusion (hstep.2 _ hmem)
      | true =>
        have hdrop := run_of_triple dropStaleKeys_keeps hstep
        cases hsettled : dropStaleKeys next with
        | error fault =>
          simp only [hsettled] at hdrop hmem
          exact released_faults hstep hdrop hmem
        | ok settled =>
          simp only [hsettled] at hdrop hmem
          have hsound : settled.2.release.Sound text := hdrop
          exact ih hsound hmem

end Scanning

/-- Where the faults in the tokens of a text come from. -/
theorem tokens_faults {text : String} {fault : Fault} (h : Token.fault fault ∈ tokens text) :
    ScanFault text.toList fault := by
  rw [tokens] at h
  split at h
  · refine Scanning.run_faults _ ⟨List.suffix_rfl, ?_⟩ h
    simp
  · obtain rfl : fault = .malformed := Token.fault.inj (List.mem_singleton.mp h)
    exact .malformed

end ContractClients.Yaml
