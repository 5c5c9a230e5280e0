import Mathlib.Data.Nat.Find
import RustyGasket.Auth

/-!
# Cutting at a character

`RateLimitSubject::new` searches downwards for a boundary to cut at; the subject is
what the longest prefix of whole characters says it is, and the cut never panics.
`FailedReason::new` stops at the first character that would not fit, whether it would
keep that character or not, so up to three bytes stay free.
-/

namespace RustyGasket

/-- `str::is_char_boundary`. -/
def isCharBoundary : List Char → Nat → Bool
  | _, 0 => true
  | [], _ => false
  | c :: rest, i => c.utf8Size ≤ i && isCharBoundary rest (i - c.utf8Size)

/-- `String::truncate`; inside a character it panics. -/
def truncate (text : List Char) (length : Nat) : Option (List Char) :=
  if textLength text ≤ length then some text
  else if isCharBoundary text length then some (floorCharBoundary length text) else none

/-- The body of `RateLimitSubject::new`: `(0..=MAX).rev().find(..).unwrap_or(0)`, and a
cut there. -/
def truncateSubject (subject : List Char) : Option (List Char) :=
  if textLength subject > MAX_RATE_LIMIT_SUBJECT_LEN then
    truncate subject
      (Nat.findGreatest (fun i => isCharBoundary subject i = true) MAX_RATE_LIMIT_SUBJECT_LEN)
  else some subject

/-- The longest prefix of whole characters within `limit` bytes. -/
structure LongestPrefix (limit : Nat) (text kept : List Char) : Prop where
  front : kept <+: text
  within : textLength kept ≤ limit
  longest : ∀ other, other <+: text → textLength other ≤ limit → other <+: kept

/-! ## Boundaries -/

theorem isCharBoundary_cons {c : Char} {rest : List Char} {i : Nat} :
    isCharBoundary (c :: rest) i = true ↔
      i = 0 ∨ c.utf8Size ≤ i ∧ isCharBoundary rest (i - c.utf8Size) = true := by
  cases i with
  | zero =>
    have positive := c.utf8Size_pos
    simp [isCharBoundary]
  | succ i => simp [isCharBoundary]

/-- The longest prefix ends at a boundary. -/
theorem isCharBoundary_floor (limit : Nat) (text : List Char) :
    isCharBoundary text (textLength (floorCharBoundary limit text)) = true := by
  induction text generalizing limit with
  | nil => rfl
  | cons c rest ih =>
    unfold floorCharBoundary
    by_cases fits : c.utf8Size ≤ limit
    · rw [if_pos fits, textLength, isCharBoundary_cons, Nat.add_sub_cancel_left]
      exact .inr ⟨Nat.le_add_right _ _, ih _⟩
    · rw [if_neg fits]
      rfl

/-- No boundary within the limit lies beyond it. -/
theorem boundary_le_floor {limit i : Nat} {text : List Char}
    (boundary : isCharBoundary text i = true) (within : i ≤ limit) :
    i ≤ textLength (floorCharBoundary limit text) := by
  induction text generalizing limit i with
  | nil =>
    cases i with
    | zero => exact Nat.zero_le _
    | succ i => cases boundary
  | cons c rest ih =>
    obtain rfl | ⟨fits, later⟩ := isCharBoundary_cons.mp boundary
    · exact Nat.zero_le _
    · have rest_le := ih later (Nat.sub_le_sub_right within c.utf8Size)
      unfold floorCharBoundary
      rw [if_pos (fits.trans within), textLength]
      omega

theorem floor_self (limit : Nat) (text : List Char) :
    floorCharBoundary (textLength (floorCharBoundary limit text)) text =
      floorCharBoundary limit text := by
  induction text generalizing limit with
  | nil => rfl
  | cons c rest ih =>
    by_cases fits : c.utf8Size ≤ limit
    · have cut : floorCharBoundary limit (c :: rest) =
          c :: floorCharBoundary (limit - c.utf8Size) rest := if_pos fits
      rw [cut, textLength, floorCharBoundary, if_pos (Nat.le_add_right _ _),
        Nat.add_sub_cancel_left, ih]
    · have cut : floorCharBoundary limit (c :: rest) = [] := if_neg fits
      rw [cut, textLength, floorCharBoundary, if_neg (Nat.not_le.mpr c.utf8Size_pos)]

theorem floor_longest (limit : Nat) (text : List Char) :
    LongestPrefix limit text (floorCharBoundary limit text) := by
  constructor
  · apply floorCharBoundary_prefix
  · apply floorCharBoundary_length
  · intro other front within
    induction text generalizing limit other with
    | nil =>
      rw [List.prefix_nil.mp front]
      exact List.nil_prefix
    | cons c rest ih =>
      obtain rfl | ⟨tail, rfl, later⟩ := List.prefix_cons_iff.mp front
      · exact List.nil_prefix
      · rw [textLength] at within
        have fits : c.utf8Size ≤ limit := by omega
        unfold floorCharBoundary
        rw [if_pos fits, List.prefix_cons_inj]
        exact ih _ tail later (by omega)

/-- The search finds where the longest prefix ends. -/
theorem findGreatest_boundary (limit : Nat) (text : List Char) :
    Nat.findGreatest (fun i => isCharBoundary text i = true) limit =
      textLength (floorCharBoundary limit text) := by
  apply le_antisymm
  · apply boundary_le_floor
    · exact Nat.findGreatest_spec (P := fun i => isCharBoundary text i = true) (Nat.zero_le limit)
        (by cases text <;> rfl)
    · exact Nat.findGreatest_le limit
  · have within := floorCharBoundary_length limit text
    exact Nat.le_findGreatest within (isCharBoundary_floor limit text)

/-- The cut is at a boundary, and what is left is the longest prefix. -/
theorem truncateSubject_eq (subject : String) :
    truncateSubject subject.toList = some (RateLimitSubject.new subject).text := by
  unfold truncateSubject
  by_cases long : textLength subject.toList > MAX_RATE_LIMIT_SUBJECT_LEN
  · have shorter := floorCharBoundary_length MAX_RATE_LIMIT_SUBJECT_LEN subject.toList
    rw [if_pos long, findGreatest_boundary, truncate, if_neg (by omega),
      if_pos (isCharBoundary_floor _ _), floor_self]
    rfl
  · rw [if_neg long]
    exact congrArg some (floorCharBoundary_of_le _ _ (Nat.not_lt.mp long)).symm

/-! ## Failure reasons -/

def withoutControl (text : List Char) : List Char := text.filter fun c => !isControl c

/-- The loop keeps all that is not control text, or stops short of the cap by less than
one character. -/
theorem sanitizeReason_cut (sanitized text : List Char) :
    sanitizeReason sanitized text <+: sanitized ++ withoutControl text ∧
      (sanitizeReason sanitized text = sanitized ++ withoutControl text ∨
        MAX_FAILED_REASON_LEN - 3 ≤ textLength (sanitizeReason sanitized text)) := by
  induction text generalizing sanitized with
  | nil => simp [sanitizeReason, withoutControl]
  | cons c rest ih =>
    unfold sanitizeReason
    by_cases full : textLength sanitized + c.utf8Size > MAX_FAILED_REASON_LEN
    · have four := c.utf8Size_le_four
      rw [if_pos full]
      exact ⟨List.prefix_append _ _, .inr (by omega)⟩
    · rw [if_neg full]
      by_cases control : isControl c = true
      · have dropped : withoutControl (c :: rest) = withoutControl rest := by
          simp [withoutControl, control]
        rw [if_pos control, dropped]
        exact ih sanitized
      · have kept : sanitized ++ withoutControl (c :: rest) =
            (sanitized ++ [c]) ++ withoutControl rest := by
          simp [withoutControl, Bool.eq_false_iff.mpr control]
        rw [if_neg control, kept]
        exact ih (sanitized ++ [c])

/-- **Length caps cut at character boundaries and lose nothing else.** -/
theorem lengthCaps (s : String) :
    (truncateSubject s.toList = some (RateLimitSubject.new s).text ∧
      LongestPrefix MAX_RATE_LIMIT_SUBJECT_LEN s.toList (RateLimitSubject.new s).text ∧
      (textLength s.toList ≤ MAX_RATE_LIMIT_SUBJECT_LEN →
        (RateLimitSubject.new s).text = s.toList) ∧
      RateLimitSubject.new (String.ofList (RateLimitSubject.new s).text) =
        RateLimitSubject.new s) ∧
    (∀ c ∈ (FailedReason.new s).text, isControl c = false) ∧
    textLength (FailedReason.new s).text ≤ 512 ∧
    (FailedReason.new s).text <+: withoutControl s.toList ∧
    ((FailedReason.new s).text = withoutControl s.toList ∨
      509 ≤ textLength (FailedReason.new s).text) := by
  have reason := sanitizeReason_cut [] s.toList
  refine ⟨⟨truncateSubject_eq s, floor_longest _ _, floorCharBoundary_of_le _ _, ?_⟩,
    (FailedReason.new s).plain, (FailedReason.new s).bounded, reason.1, reason.2⟩
  have again := floorCharBoundary_of_le _ _ (RateLimitSubject.new s).bounded
  simp only [RateLimitSubject.new, String.toList_ofList] at again ⊢
  simp only [again]

end RustyGasket
