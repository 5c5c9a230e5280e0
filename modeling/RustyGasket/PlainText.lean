import RustyGasket.Http

/-!
# Plain text in headers

Text of visible ASCII is its bytes, one a character, and a header value that shows it.
-/

namespace RustyGasket

theorem utf8_ofList (text : List Char) :
    utf8 (String.ofList text) = text.flatMap String.utf8EncodeChar := by
  simp [utf8, List.utf8Encode]

/-- Visible ASCII. -/
def isPlain (c : Char) : Bool := 32 ≤ c.toNat && c.toNat < 127

theorem utf8_plain {text : List Char} (plain : ∀ c ∈ text, isPlain c = true) :
    utf8 (String.ofList text) = text.map fun c => UInt8.ofNat c.toNat := by
  rw [utf8_ofList]
  induction text with
  | nil => rfl
  | cons c rest ih =>
    have head := plain c List.mem_cons_self
    rw [isPlain, Bool.and_eq_true, decide_eq_true_eq, decide_eq_true_eq] at head
    have small : c.val ≤ 127 := by
      rw [UInt32.le_iff_toNat_le]
      exact Nat.le_of_lt head.2
    rw [List.flatMap_cons, ih fun d hd => plain d (List.mem_cons_of_mem _ hd),
      String.utf8EncodeChar_eq_singleton (Char.utf8Size_eq_one_iff.mpr small)]
    rfl

/-- Plain text is a header value that shows it. -/
theorem fromStr_plain {text : List Char} (plain : ∀ c ∈ text, isPlain c = true) :
    ∃ line, HeaderValue.fromStr (String.ofList text) = some line ∧ line.toStr = some text := by
  have byte : ∀ c, isPlain c = true → isVisibleAscii (UInt8.ofNat c.toNat) = true ∧
      Char.ofNat (UInt8.ofNat c.toNat).toNat = c := by
    intro c hc
    rw [isPlain, Bool.and_eq_true, decide_eq_true_eq, decide_eq_true_eq] at hc
    have read : (UInt8.ofNat c.toNat).toNat = c.toNat := by
      rw [UInt8.toNat_ofNat']
      omega
    constructor
    · rw [isVisibleAscii, Bool.or_eq_true, Bool.and_eq_true, decide_eq_true_eq, decide_eq_true_eq,
        UInt8.le_iff_toNat_le, UInt8.lt_iff_toNat_lt, read]
      exact .inl hc
    · rw [read, Char.ofNat_toNat]
  have visible : (utf8 (String.ofList text)).all isVisibleAscii = true := by
    rw [utf8_plain plain, List.all_map, List.all_eq_true]
    exact fun c hc => (byte c (plain c hc)).1
  have shown : asciiText (utf8 (String.ofList text)) = text := by
    rw [utf8_plain plain, asciiText, List.map_map]
    exact (List.map_congr_left fun c hc => (byte c (plain c hc)).2).trans (List.map_id' text)
  obtain ⟨line, legal, bytes⟩ := HeaderValue.fromStr_visible visible
  refine ⟨line, legal, ?_⟩
  rw [HeaderValue.toStr, bytes, if_pos visible]
  exact congrArg some shown

theorem toNat_byte : ∀ b : UInt8, (Char.ofNat b.toNat).toNat = b.toNat := by
  apply forall_byte
  decide +kernel

/-- Plain bytes read as characters are the text they are of. -/
theorem ofList_asciiText {text : String}
    (plain : ∀ b ∈ utf8 text, isPlain (Char.ofNat b.toNat) = true) :
    String.ofList (asciiText (utf8 text)) = text := by
  apply utf8_injective
  have each : ∀ c ∈ asciiText (utf8 text), isPlain c = true := by
    intro c hc
    obtain ⟨b, hb, rfl⟩ := List.mem_map.mp hc
    exact plain b hb
  rw [utf8_plain each, asciiText, List.map_map]
  refine (List.map_congr_left fun b _ => ?_).trans (List.map_id' _)
  exact (congrArg UInt8.ofNat (toNat_byte b)).trans (UInt8.ofNat_toNat)

end RustyGasket
