/-
Text as Go programs and SQL columns handle it: ASCII lower case, hexadecimal, blank-padded columns.
-/
import Mathlib.Algebra.Group.Int.Defs
import Mathlib.Data.List.Basic
import Mathlib.Data.String.Basic
import Mathlib.Tactic.Common

namespace Eth402.Lib

/-! ## Characters -/

/-- The bytes of a text in UTF-8. -/
def utf8 (s : String) : List UInt8 := s.toByteArray.data.toList

/-- The characters of a text; those of ASCII are its bytes, so that such a text can be evaluated. -/
def chars (s : String) : List Char :=
  bif (utf8 s).any (128 ≤ ·) then s.toList else (utf8 s).map fun b => Char.ofNat b.toNat

theorem utf8_ofList (cs : List Char) : utf8 (String.ofList cs) = cs.flatMap String.utf8EncodeChar := by
  unfold utf8
  rw [String.toByteArray_ofList, List.utf8Encode, List.data_toByteArray]

theorem utf8EncodeChar_ascii {c : Char} (h : ∀ b ∈ String.utf8EncodeChar c, b < 128) :
    (String.utf8EncodeChar c).map (fun b => Char.ofNat b.toNat) = [c] := by
  have hbig : ∀ n : Nat, 128 ≤ n → n < 256 → ¬ UInt8.ofNat n < 128 := fun n h₁ h₂ hlt => by
    have : (UInt8.ofNat n).toNat < 128 := hlt
    rw [UInt8.toNat_ofNat'] at this
    omega
  unfold String.utf8EncodeChar at h ⊢
  simp only at h ⊢
  split
  · rename_i hv
    have hn : (UInt8.ofNat c.val.toNat).toNat = c.toNat := by
      rw [UInt8.toNat_ofNat']
      exact Nat.mod_eq_of_lt (by omega)
    simp only [List.map_cons, List.map_nil, hn, Char.ofNat_toNat]
  · rename_i hv
    rw [if_neg hv] at h
    -- the first of several bytes is never ASCII
    split at h
    · exact absurd (h _ (List.mem_cons_self ..)) (hbig _ (by omega) (by omega))
    split at h
    · exact absurd (h _ (List.mem_cons_self ..)) (hbig _ (by omega) (by omega))
    · exact absurd (h _ (List.mem_cons_self ..)) (hbig _ (by omega) (by omega))

@[simp] theorem chars_eq (s : String) : chars s = s.toList := by
  have hb : utf8 s = s.toList.flatMap String.utf8EncodeChar := by
    conv => lhs; rw [← String.ofList_toList (s := s)]
    exact utf8_ofList _
  unfold chars
  cases hany : (utf8 s).any (128 ≤ ·) with
  | true => rfl
  | false =>
    rw [cond_false]
    rw [hb] at hany ⊢
    have hone : ∀ c ∈ s.toList, (String.utf8EncodeChar c).map (fun b => Char.ofNat b.toNat) = [c] := fun c hc =>
      utf8EncodeChar_ascii fun b hbm => by
        have := List.any_eq_false.1 hany b (List.mem_flatMap.2 ⟨c, hc, hbm⟩)
        simpa using this
    rw [List.map_flatMap, List.flatMap_congr hone, List.flatMap_singleton']

theorem chars_ofList (cs : List Char) : chars (String.ofList cs) = cs := by rw [chars_eq, String.toList_ofList]

theorem ofList_chars (s : String) : String.ofList (chars s) = s := by rw [chars_eq, String.ofList_toList]

/-- ASCII lower case. -/
def lower (s : String) : String := String.ofList ((chars s).map Char.toLower)

/-- Equality up to ASCII case. -/
def equalFold (a b : String) : Bool := lower a = lower b

def hasPrefix (p s : String) : Bool := chars p <+: chars s

/-! ## Hexadecimal -/

def hexDigit (n : Nat) : Char := (chars "0123456789abcdef")[n]?.getD '0'

/-- The value of a hexadecimal digit of either case. -/
def hexVal (c : Char) : Option Nat :=
  if '0' ≤ c ∧ c ≤ '9' then some (c.toNat - '0'.toNat)
  else if 'a' ≤ c ∧ c ≤ 'f' then some (c.toNat - 'a'.toNat + 10)
  else if 'A' ≤ c ∧ c ≤ 'F' then some (c.toNat - 'A'.toNat + 10)
  else none

def hexChars : List UInt8 → List Char
  | [] => []
  | b :: bs => hexDigit (b.toNat / 16) :: hexDigit (b.toNat % 16) :: hexChars bs

/-- Lower-case hexadecimal, two digits a byte. -/
def hexEncode (bs : List UInt8) : String := String.ofList (hexChars bs)

/-- The bytes a hexadecimal text stands for; `none` on an odd length or a character that is no digit. -/
def hexDecode : List Char → Option (List UInt8)
  | [] => some []
  | [_] => none
  | a :: b :: cs => do
    let h ← hexVal a
    let l ← hexVal b
    let rest ← hexDecode cs
    pure (UInt8.ofNat (h * 16 + l) :: rest)

theorem hexVal_hexDigit : ∀ n < 16, hexVal (hexDigit n) = some n := by decide

theorem hexDecode_hexChars (bs : List UInt8) : hexDecode (hexChars bs) = some bs := by
  induction bs with
  | nil => rfl
  | cons b bs ih =>
    have hb : b.toNat < 256 := b.toNat_lt
    simp only [hexChars, hexDecode, hexVal_hexDigit _ (by omega : b.toNat / 16 < 16),
      hexVal_hexDigit _ (by omega : b.toNat % 16 < 16), ih, Option.pure_def, Option.bind_eq_bind,
      Option.bind_some]
    rw [show b.toNat / 16 * 16 + b.toNat % 16 = b.toNat by omega, UInt8.ofNat_toNat]

theorem hexEncode_inj {a b : List UInt8} (h : hexEncode a = hexEncode b) : a = b := by
  have h' := congrArg hexDecode (String.ofList_injective h)
  rw [hexDecode_hexChars, hexDecode_hexChars] at h'
  exact Option.some.inj h'

/-! ## Lower case -/

theorem toLower_rel {Q : Char → Char → Prop} (same : ∀ c, Q c c)
    (upper : ∀ n < 26, Q (Char.toLower (Char.ofNat (65 + n))) (Char.ofNat (65 + n))) (c : Char) : Q c.toLower c := by
  by_cases h : c.val ≥ 'A'.val ∧ c.val ≤ 'Z'.val
  · have hlo : 65 ≤ c.toNat := h.1
    have hhi : c.toNat ≤ 90 := h.2
    have hc : Char.ofNat (65 + (c.toNat - 65)) = c := by
      rw [Nat.add_sub_of_le hlo, Char.ofNat_toNat]
    have := upper (c.toNat - 65) (by omega)
    rwa [hc] at this
  · have : c.toLower = c := by unfold Char.toLower; rw [dif_neg h]
    rw [this]; exact same c

theorem toLower_idem (c : Char) : c.toLower.toLower = c.toLower :=
  toLower_rel (Q := fun l c => l.toLower = c.toLower) (fun _ => rfl) (by decide) c

theorem hexVal_toLower (c : Char) : hexVal c.toLower = hexVal c :=
  toLower_rel (Q := fun l c => hexVal l = hexVal c) (fun _ => rfl) (by decide) c

theorem utf8Size_toLower (c : Char) : c.toLower.utf8Size = c.utf8Size :=
  toLower_rel (Q := fun l c => l.utf8Size = c.utf8Size) (fun _ => rfl) (by decide) c

theorem lower_lower (s : String) : lower (lower s) = lower s := by
  unfold lower
  rw [chars_ofList, List.map_map]
  congr 1
  exact List.map_congr_left fun c _ => toLower_idem c

theorem utf8ByteSize_lower (s : String) : (lower s).utf8ByteSize = s.utf8ByteSize := by
  have h : ∀ cs : List Char, String.utf8Len (cs.map Char.toLower) = String.utf8Len cs := fun cs => by
    induction cs with
    | nil => rfl
    | cons c cs ih => simp [String.utf8Len, ih, utf8Size_toLower]
  rw [lower, String.utf8ByteSize_ofList, h, ← String.utf8ByteSize_ofList, ofList_chars]

theorem hexDecode_map_toLower : ∀ cs : List Char, hexDecode (cs.map Char.toLower) = hexDecode cs
  | [] => rfl
  | [_] => rfl
  | a :: b :: cs => by simp [hexDecode, hexVal_toLower, hexDecode_map_toLower cs]

theorem hasPrefix_lower {p s : String} (hp : lower p = p) (h : hasPrefix p s = true) :
    hasPrefix p (lower s) = true := by
  simp only [hasPrefix, decide_eq_true_eq] at *
  rw [← hp]
  simpa [lower] using h.map Char.toLower

theorem toLower_of_hexVal {c : Char} {n : Nat} (h : hexVal c = some n) : c.toLower = hexDigit n ∧ n < 16 := by
  have digits : ∀ k < 128, (hexVal (Char.ofNat k)).all (fun n => (Char.ofNat k).toLower = hexDigit n ∧
    n < 16) = true := by
    decide
  have hlt : c.toNat < 128 := by
    have hle : ∀ {d : Char}, c ≤ d → d.toNat < 128 → c.toNat < 128 := fun {d} hcd hd => Nat.lt_of_le_of_lt hcd hd
    unfold hexVal at h
    split at h
    · rename_i hc
      exact hle hc.2 (by decide)
    split at h
    · rename_i hc
      exact hle hc.2 (by decide)
    split at h
    · rename_i hc
      exact hle hc.2 (by decide)
    · cases h
  have := digits c.toNat hlt
  rw [Char.ofNat_toNat, h] at this
  exact of_decide_eq_true this

/-- So a hexadecimal text is, in lower case, the one spelling of its bytes. -/
theorem map_toLower_of_hexDecode : ∀ {cs : List Char} {bs : List UInt8}, hexDecode cs = some bs →
    cs.map Char.toLower = hexChars bs
  | [], bs, h => by cases h; rfl
  | [_], bs, h => by cases h
  | a :: b :: cs, bs, h => by
    simp only [hexDecode, Option.pure_def, Option.bind_eq_bind, Option.bind_eq_some_iff] at h
    obtain ⟨x, hx, y, hy, rest, hrest, heq⟩ := h
    cases heq
    obtain ⟨hax, hx16⟩ := toLower_of_hexVal hx
    obtain ⟨hby, hy16⟩ := toLower_of_hexVal hy
    have hn : (UInt8.ofNat (x * 16 + y)).toNat = x * 16 + y := by
      rw [UInt8.toNat_ofNat']
      exact Nat.mod_eq_of_lt (by omega)
    simp only [List.map_cons, hexChars, hn, hax, hby, map_toLower_of_hexDecode hrest]
    rw [show (x * 16 + y) / 16 = x by omega, show (x * 16 + y) % 16 = y by omega]

theorem length_hexChars (bs : List UInt8) : (hexChars bs).length = 2 * bs.length := by
  induction bs with
  | nil => rfl
  | cons b bs ih => simp only [hexChars, List.length_cons, ih]; omega

/-! ## Decimal numbers -/

/-- The value of a non-empty text of decimal digits. -/
def decimalValue (cs : List Char) : Option Nat :=
  if cs ≠ [] ∧ cs.all Char.isDigit then some (Nat.ofDigitChars 10 cs 0) else none

/-- `big.Int.SetString(s, 10)`: decimal digits after an optional sign. -/
def setString10 (s : String) : Option Int :=
  match chars s with
  | '-' :: cs => (decimalValue cs).map fun n => -(n : Int)
  | '+' :: cs => (decimalValue cs).map fun n => (n : Int)
  | cs => (decimalValue cs).map fun n => (n : Int)

/-- `strconv.ParseInt(s, 10, 64)`. -/
def parseInt64 (s : String) : Option Int :=
  (setString10 s).filter fun n => -2 ^ 63 ≤ n ∧ n < 2 ^ 63

theorem decimalValue_toDigits (n : Nat) : decimalValue (Nat.toDigits 10 n) = some n := by
  have hd : (Nat.toDigits 10 n).all Char.isDigit = true := by
    rw [List.all_eq_true]
    intro c hc
    exact Nat.isDigit_of_mem_toDigits (by omega) (by omega) hc
  rw [decimalValue, if_pos ⟨Nat.toDigits_ne_nil, hd⟩, Nat.ofDigitChars_ten_toDigits]

theorem setString10_natCast (n : Nat) : setString10 (toString (n : Int)) = some (n : Int) := by
  have hs : chars (toString (n : Int)) = Nat.toDigits 10 n := by
    change chars (Nat.repr n) = _
    rw [Nat.repr_eq_ofList_toDigits, chars_ofList]
  have hv := decimalValue_toDigits n
  unfold setString10
  rw [hs]
  split
  · rename_i cs h
    have : ('-' : Char).isDigit = true :=
      Nat.isDigit_of_mem_toDigits (b := 10) (n := n) (by omega) (by omega) (by rw [h]; simp)
    exact absurd this (by decide)
  · rename_i cs h
    have : ('+' : Char).isDigit = true :=
      Nat.isDigit_of_mem_toDigits (b := 10) (n := n) (by omega) (by omega) (by rw [h]; simp)
    exact absurd this (by decide)
  · rw [hv]; rfl

theorem setString10_toString (n : Int) : setString10 (toString n) = some n := by
  cases n with
  | ofNat n => exact setString10_natCast n
  | negSucc n =>
    have hs : chars (toString (Int.negSucc n)) = '-' :: Nat.toDigits 10 (n + 1) := by
      change chars ("-" ++ Nat.repr (n + 1)) = _
      rw [Nat.repr_eq_ofList_toDigits, chars_eq, String.toList_append, String.toList_ofList, String.toList_ofList]
      rfl
    unfold setString10
    rw [hs]
    simp only [decimalValue_toDigits]
    rfl

theorem parseInt64_toString (n : Int) :
    parseInt64 (toString n) = if -2 ^ 63 ≤ n ∧ n < 2 ^ 63 then some n else none := by
  unfold parseInt64
  rw [setString10_toString, Option.filter_some]
  simp only [decide_eq_true_eq]

/-! ## Blank-padded columns -/

/-- What a column of `n` characters gives back for a text that fits it. -/
def padTo (n : Nat) (s : String) : String :=
  String.ofList (chars s ++ List.replicate (n - (chars s).length) ' ')

theorem padTo_of_length {n : Nat} {s : String} (h : n ≤ (chars s).length) : padTo n s = s := by
  unfold padTo
  rw [Nat.sub_eq_zero_of_le h, List.replicate_zero, List.append_nil, ofList_chars]

end Eth402.Lib
