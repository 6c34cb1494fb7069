import ResourceQuery.Proofs.Text.Pieces
import ResourceQuery.QueryString

/-!
# Reading form encoding

The way back from form encoding to pairs: pieces between ampersands, the first equals sign of a
piece, and in both parts plus signs and percent forms, which give the bytes of a text. No character
of an encoded text is an ampersand or an equals sign, and a percent form gives its byte. Main
statement: pairs are read from what they are written as (`pairs?_ofPairs`).
-/

set_option autoImplicit false

namespace ResourceQuery.QueryString

/-! ## Reading -/

/-- The value of a hexadecimal digit in upper case. -/
def hexValue (digit : Char) : Nat :=
  if digit.toNat < 58 then digit.toNat - 48 else digit.toNat - 55

/-- The bytes that form encoding stands for. -/
def bytesOf : List Char → List UInt8
  | '%' :: high :: low :: rest => UInt8.ofNat (16 * hexValue high + hexValue low) :: bytesOf rest
  | '+' :: rest => 32 :: bytesOf rest
  | c :: rest => String.utf8EncodeChar c ++ bytesOf rest
  | [] => []

/-- The text that form encoding stands for, if its bytes are one. -/
def decode? (chars : List Char) : Option String :=
  String.fromUTF8? (bytesOf chars).toByteArray

/-- The pair that a piece stands for: the texts before and after its first equals sign. -/
def pair? (piece : List Char) : Option (String × String) := do
  let name ← decode? (piece.takeWhile (· ≠ '='))
  let text ← decode? (piece.dropWhile (· ≠ '=')).tail
  return (name, text)

/-- The pairs that a query string stands for. -/
def pairs? (text : String) : Option (List (String × String)) :=
  if text = "" then some [] else (text.toList.splitOn '&').mapM pair?

/-! ## Texts -/

theorem hexValue_hexDigit : ∀ n : Fin 16, hexValue (hexDigit n) = n := by decide

theorem isPlain_hexDigit : ∀ n : Fin 16, isPlain (hexDigit n) = true := by decide

theorem bytesOf_percentForm (byte : UInt8) (rest : List Char) :
    bytesOf (percentForm byte ++ rest) = byte :: bytesOf rest := by
  have hlt : byte.toNat < 256 := UInt8.toNat_lt_size byte
  have hhigh := hexValue_hexDigit ⟨byte.toNat / 16, by omega⟩
  have hlow := hexValue_hexDigit ⟨byte.toNat % 16, by omega⟩
  have hbyte : UInt8.ofNat (16 * (byte.toNat / 16) + byte.toNat % 16) = byte := by
    rw [Nat.div_add_mod]
    exact UInt8.ofNat_toNat
  rw [percentForm, List.cons_append, List.cons_append, List.cons_append, List.nil_append, bytesOf,
    hhigh, hlow, hbyte]

theorem bytesOf_percentForms (bytes : List UInt8) (rest : List Char) :
    bytesOf (bytes.flatMap percentForm ++ rest) = bytes ++ bytesOf rest := by
  induction bytes with
  | nil => rfl
  | cons byte more ih =>
      rw [List.flatMap_cons, List.append_assoc, bytesOf_percentForm, ih, List.cons_append]

theorem bytesOf_encodeChar (c : Char) (rest : List Char) :
    bytesOf (encodeChar c ++ rest) = String.utf8EncodeChar c ++ bytesOf rest := by
  rw [encodeChar]
  by_cases hplain : isPlain c = true
  · rw [if_pos hplain, List.singleton_append, bytesOf]
    · rintro high low more rfl
      exact absurd hplain (by decide)
    · rintro rfl
      exact absurd hplain (by decide)
  · rw [if_neg hplain]
    by_cases hblank : c = ' '
    · subst hblank
      rw [if_pos rfl, List.singleton_append, bytesOf]
      rfl
    · rw [if_neg hblank, bytesOf_percentForms]

theorem bytesOf_encode (text : String) :
    bytesOf (encode text) = text.toList.flatMap String.utf8EncodeChar := by
  have hall : ∀ chars : List Char,
      bytesOf (chars.flatMap encodeChar) = chars.flatMap String.utf8EncodeChar := by
    intro chars
    induction chars with
    | nil => rfl
    | cons c rest ih => rw [List.flatMap_cons, bytesOf_encodeChar, ih, List.flatMap_cons]
  exact hall text.toList

/-- A text is read from its form encoding. -/
theorem decode?_encode (text : String) : decode? (encode text) = some text := by
  have hbytes : (bytesOf (encode text)).toByteArray = text.toByteArray := by
    rw [bytesOf_encode]
    exact String.utf8Encode_toList
  rw [decode?, hbytes, String.fromUTF8?, dif_pos text.isValidUTF8]
  rfl

/-- The characters of encoded texts. -/
theorem of_mem_encode {text : String} {c : Char} (h : c ∈ encode text) :
    isPlain c = true ∨ c = '+' ∨ c = '%' := by
  obtain ⟨source, -, hc⟩ := List.mem_flatMap.mp h
  rw [encodeChar] at hc
  split at hc
  · rename_i hplain
    exact .inl (List.mem_singleton.mp hc ▸ hplain)
  · split at hc
    · exact .inr (.inl (List.mem_singleton.mp hc))
    · obtain ⟨byte, -, hc⟩ := List.mem_flatMap.mp hc
      have hlt : byte.toNat < 256 := UInt8.toNat_lt_size byte
      rw [percentForm, List.mem_cons, List.mem_cons, List.mem_singleton] at hc
      -- a percent sign and two digits
      rcases hc with rfl | rfl | rfl
      · exact .inr (.inr rfl)
      · exact .inl (isPlain_hexDigit ⟨byte.toNat / 16, by omega⟩)
      · exact .inl (isPlain_hexDigit ⟨byte.toNat % 16, by omega⟩)

theorem equals_notMem_encode (text : String) : '=' ∉ encode text := fun h =>
  absurd (of_mem_encode h) (by decide)

theorem ampersand_notMem_encode (text : String) : '&' ∉ encode text := fun h =>
  absurd (of_mem_encode h) (by decide)

/-! ## Pairs -/

/-- A pair is read from its form encoding. -/
theorem pair?_encodePair (pair : String × String) : pair? (encodePair pair) = some pair := by
  -- the name has no equals sign, so the first one ends it
  have hname : ∀ c ∈ encode pair.1, decide (c ≠ '=') = true := fun c hc =>
    decide_eq_true fun heq => equals_notMem_encode pair.1 (heq ▸ hc)
  have hbefore : (encodePair pair).takeWhile (· ≠ '=') = encode pair.1 := by
    rw [encodePair, List.takeWhile_append_of_pos hname, List.takeWhile_cons_of_neg (by decide),
      List.append_nil]
  have hafter : (encodePair pair).dropWhile (· ≠ '=') = '=' :: encode pair.2 := by
    rw [encodePair, List.dropWhile_append_of_pos hname, List.dropWhile_cons_of_neg (by decide)]
  rw [pair?, hbefore, hafter, List.tail_cons, decode?_encode, decode?_encode]
  rfl

/-- **Pairs are read from their form encoding.** -/
theorem pairs?_ofPairs (pairs : List (String × String)) : pairs? (ofPairs pairs) = some pairs := by
  cases pairs with
  | nil => rfl
  | cons first rest =>
      have hpieces : ∀ piece ∈ (first :: rest).map encodePair, '&' ∉ piece := by
        intro piece hpiece
        obtain ⟨pair, -, rfl⟩ := List.mem_map.mp hpiece
        rw [encodePair, List.mem_append, List.mem_cons]
        rintro (h | h | h)
        · exact ampersand_notMem_encode _ h
        · exact absurd h (by decide)
        · exact ampersand_notMem_encode _ h
      have hsplit : (ofPairs (first :: rest)).toList.splitOn '&'
          = (first :: rest).map encodePair := by
        rw [ofPairs, String.toList_ofList]
        exact List.splitOn_intercalate '&' hpieces (List.cons_ne_nil _ _)
      -- an empty text has one empty piece, but every piece has an equals sign in it
      have hne : ofPairs (first :: rest) ≠ "" := by
        intro hempty
        rw [hempty] at hsplit
        have hnil : encodePair first = [] := (List.cons.inj hsplit).1.symm
        exact List.append_ne_nil_of_right_ne_nil _ (List.cons_ne_nil _ _) hnil
      rw [pairs?, if_neg hne, hsplit]
      have hall : ∀ pairs : List (String × String),
          (pairs.map encodePair).mapM pair? = some pairs := by
        intro pairs
        induction pairs with
        | nil => rfl
        | cons pair more ih =>
            rw [List.map_cons, List.mapM_cons, pair?_encodePair, ih]
            rfl
      exact hall _

end ResourceQuery.QueryString
