import Mathlib.Data.List.Forall2
import Mathlib.Order.Bounds.Basic
import TaggedWire.Utf8

/-!
# Characters in UTF-8

Behind a lead byte just those bytes fit the ranges that are the rest of a character. So a walk along
the ranges comes to the end of the longest text in front, and there it has seen all bytes that a
character may still begin with.
-/

namespace TaggedWire.Utf8

open String (utf8EncodeChar)

/-! ## Forms of characters -/

/-- The bytes lie in the ranges, one in each. -/
def Fits (ranges : List Range) (bytes : List UInt8) : Prop :=
  List.Forall₂ (fun range b => range.contains b) ranges bytes

theorem Range.contains_iff {range : Range} {b : UInt8} :
    range.contains b ↔ range.low.toNat ≤ b.toNat ∧ b.toNat ≤ range.high.toNat := by
  simp [contains, UInt8.le_iff_toNat_le]

theorem followers?_iff {lead : UInt8} {ranges : List Range} :
    followers? lead = some ranges ↔
      lead.toNat < 0x80 ∧ ranges = [] ∨
      0xc2 ≤ lead.toNat ∧ lead.toNat < 0xe0 ∧ ranges = [continuation] ∨
      lead.toNat = 0xe0 ∧ ranges = [⟨0xa0, 0xbf⟩, continuation] ∨
      lead.toNat = 0xed ∧ ranges = [⟨0x80, 0x9f⟩, continuation] ∨
      0xe0 < lead.toNat ∧ lead.toNat < 0xf0 ∧ lead.toNat ≠ 0xed ∧
        ranges = [continuation, continuation] ∨
      lead.toNat = 0xf0 ∧ ranges = [⟨0x90, 0xbf⟩, continuation, continuation] ∨
      0xf0 < lead.toNat ∧ lead.toNat < 0xf4 ∧
        ranges = [continuation, continuation, continuation] ∨
      lead.toNat = 0xf4 ∧ ranges = [⟨0x80, 0x8f⟩, continuation, continuation] := by
  unfold followers?
  simp only [UInt8.lt_iff_toNat_lt, ← UInt8.toNat_inj, UInt8.reduceToNat]
  grind

theorem followers?_contains_low {lead : UInt8} {ranges : List Range}
    (h : followers? lead = some ranges) : ∀ range ∈ ranges, range.contains range.low := by
  rcases followers?_iff.mp h with ⟨-, rfl⟩ | ⟨-, -, rfl⟩ | ⟨-, rfl⟩ | ⟨-, rfl⟩ | ⟨-, -, -, rfl⟩ |
    ⟨-, rfl⟩ | ⟨-, -, rfl⟩ | ⟨-, rfl⟩ <;> decide

theorem fits_append_iff {front back : List Range} {bytes more : List UInt8} (h : Fits front bytes) :
    Fits (front ++ back) (bytes ++ more) ↔ Fits back more := by
  unfold Fits at *
  induction h with
  | nil => rfl
  | cons inside _ ih => simp [inside, ih]

theorem exists_char_of_scalar {n : Nat} (valid : n.isValidChar) :
    ∃ char : Char, char.val.toNat = n := by
  refine ⟨Char.ofNat n, ?_⟩
  rw [Char.ofNat, dif_pos valid]
  rfl

theorem ofNat_eq_iff {b : UInt8} {n : Nat} : UInt8.ofNat n = b ↔ n % 256 = b.toNat := by
  rw [← UInt8.toNat_inj, UInt8.toNat_ofNat']

theorem exists_char_one {a : UInt8} (ha : a.toNat < 0x80) :
    ∃ char, utf8EncodeChar char = [a] := by
  obtain ⟨char, scalar⟩ := exists_char_of_scalar (n := a.toNat) (.inl (by omega))
  refine ⟨char, ?_⟩
  unfold utf8EncodeChar
  rw [scalar]
  dsimp only
  rw [if_pos (by omega), UInt8.ofNat_toNat]

theorem exists_char_two {a b : UInt8} (ha : 0xc2 ≤ a.toNat ∧ a.toNat < 0xe0)
    (hb : 0x80 ≤ b.toNat ∧ b.toNat < 0xc0) : ∃ char, utf8EncodeChar char = [a, b] := by
  let n := (a.toNat - 0xc0) * 0x40 + (b.toNat - 0x80)
  obtain ⟨char, scalar⟩ := exists_char_of_scalar (n := n) (.inl (by omega))
  refine ⟨char, ?_⟩
  unfold utf8EncodeChar
  rw [scalar]
  dsimp only
  rw [if_neg (by omega), if_pos (by omega)]
  simp only [List.cons.injEq, ofNat_eq_iff, and_true]
  omega

theorem exists_char_three {a b c : UInt8} (ha : 0xe0 ≤ a.toNat ∧ a.toNat < 0xf0)
    (hb : 0x80 ≤ b.toNat ∧ b.toNat < 0xc0) (hc : 0x80 ≤ c.toNat ∧ c.toNat < 0xc0)
    (shortest : a.toNat = 0xe0 → 0xa0 ≤ b.toNat) (scalar : a.toNat = 0xed → b.toNat < 0xa0) :
    ∃ char, utf8EncodeChar char = [a, b, c] := by
  let n := (a.toNat - 0xe0) * 0x1000 + (b.toNat - 0x80) * 0x40 + (c.toNat - 0x80)
  have valid : n.isValidChar := by
    unfold Nat.isValidChar
    omega
  obtain ⟨char, scalar⟩ := exists_char_of_scalar valid
  refine ⟨char, ?_⟩
  unfold utf8EncodeChar
  rw [scalar]
  dsimp only
  rw [if_neg (by omega), if_neg (by omega), if_pos (by omega)]
  simp only [List.cons.injEq, ofNat_eq_iff, and_true]
  omega

theorem exists_char_four {a b c d : UInt8} (ha : 0xf0 ≤ a.toNat ∧ a.toNat < 0xf5)
    (hb : 0x80 ≤ b.toNat ∧ b.toNat < 0xc0) (hc : 0x80 ≤ c.toNat ∧ c.toNat < 0xc0)
    (hd : 0x80 ≤ d.toNat ∧ d.toNat < 0xc0) (shortest : a.toNat = 0xf0 → 0x90 ≤ b.toNat)
    (scalar : a.toNat = 0xf4 → b.toNat < 0x90) :
    ∃ char, utf8EncodeChar char = [a, b, c, d] := by
  let n := (a.toNat - 0xf0) * 0x40000 + (b.toNat - 0x80) * 0x1000 + (c.toNat - 0x80) * 0x40 +
    (d.toNat - 0x80)
  have valid : n.isValidChar := by
    unfold Nat.isValidChar
    omega
  obtain ⟨char, scalar⟩ := exists_char_of_scalar valid
  refine ⟨char, ?_⟩
  unfold utf8EncodeChar
  rw [scalar]
  dsimp only
  rw [if_neg (by omega), if_neg (by omega), if_neg (by omega)]
  simp only [List.cons.injEq, ofNat_eq_iff, and_true]
  omega

theorem followers?_of_char {char : Char} {lead : UInt8} {tail : List UInt8}
    (h : utf8EncodeChar char = lead :: tail) :
    ∃ ranges, followers? lead = some ranges ∧ Fits ranges tail := by
  have valid : char.val.toNat < 0xd800 ∨ 0xdfff < char.val.toNat ∧ char.val.toNat < 0x110000 :=
    char.valid
  unfold utf8EncodeChar at h
  dsimp only at h
  generalize char.val.toNat = n at h valid
  split at h
  · cases h
    refine ⟨[], ?_, .nil⟩
    simp [followers?_iff]
    omega
  split at h
  · cases h
    refine ⟨[continuation], ?_, ?_⟩ <;>
      simp [followers?_iff, Fits, Range.contains_iff, continuation] <;> omega
  -- The first and the last ranges of three and four bytes are cut, and so are the surrogates.
  split at h
  · cases h
    rcases (by omega : n < 0x1000 ∨ 0xd000 ≤ n ∧ n < 0xe000 ∨
      0x1000 ≤ n ∧ (n < 0xd000 ∨ 0xe000 ≤ n)) with first | surrogate | other
    · refine ⟨[⟨0xa0, 0xbf⟩, continuation], ?_, ?_⟩ <;>
        simp [followers?_iff, Fits, Range.contains_iff, continuation] <;> omega
    · refine ⟨[⟨0x80, 0x9f⟩, continuation], ?_, ?_⟩ <;>
        simp [followers?_iff, Fits, Range.contains_iff, continuation] <;> omega
    · refine ⟨[continuation, continuation], ?_, ?_⟩ <;>
        simp [followers?_iff, Fits, Range.contains_iff, continuation] <;> omega
  · cases h
    rcases (by omega : n < 0x40000 ∨ 0x40000 ≤ n ∧ n < 0x100000 ∨ 0x100000 ≤ n)
      with first | middle | last
    · refine ⟨[⟨0x90, 0xbf⟩, continuation, continuation], ?_, ?_⟩ <;>
        simp [followers?_iff, Fits, Range.contains_iff, continuation] <;> omega
    · refine ⟨[continuation, continuation, continuation], ?_, ?_⟩ <;>
        simp [followers?_iff, Fits, Range.contains_iff, continuation] <;> omega
    · refine ⟨[⟨0x80, 0x8f⟩, continuation, continuation], ?_, ?_⟩ <;>
        simp [followers?_iff, Fits, Range.contains_iff, continuation] <;> omega

theorem exists_char_of_followers {lead : UInt8} {tail : List UInt8} {ranges : List Range}
    (leads : followers? lead = some ranges) (fits : Fits ranges tail) :
    ∃ char, utf8EncodeChar char = lead :: tail := by
  unfold Fits at fits
  rcases followers?_iff.mp leads with ⟨small, rfl⟩ | ⟨low, high, rfl⟩ | ⟨same, rfl⟩ | ⟨same, rfl⟩ |
    ⟨low, high, other, rfl⟩ | ⟨same, rfl⟩ | ⟨low, high, rfl⟩ | ⟨same, rfl⟩
  · cases fits
    exact exists_char_one small
  all_goals simp only [List.forall₂_cons_left_iff, List.forall₂_nil_left_iff, Range.contains_iff,
    continuation, UInt8.reduceToNat] at fits
  · obtain ⟨b, _, hb, rfl, rfl⟩ := fits
    apply exists_char_two <;> omega
  iterate 3
    · obtain ⟨b, _, hb, ⟨c, _, hc, rfl, rfl⟩, rfl⟩ := fits
      apply exists_char_three <;> omega
  iterate 3
    · obtain ⟨b, _, hb, ⟨c, _, hc, ⟨d, _, hd, rfl, rfl⟩, rfl⟩, rfl⟩ := fits
      apply exists_char_four <;> omega

/-- A lead byte and bytes in its ranges are the form of a character, and there are no other forms.
-/
theorem exists_char_iff {lead : UInt8} {tail : List UInt8} :
    (∃ char, utf8EncodeChar char = lead :: tail) ↔
      ∃ ranges, followers? lead = some ranges ∧ Fits ranges tail := by
  constructor
  · rintro ⟨char, h⟩
    exact followers?_of_char h
  · rintro ⟨ranges, leads, fits⟩
    exact exists_char_of_followers leads fits

/-! ## Fronts of characters -/

/-- Some character begins with these bytes. -/
def Begins (bytes : List UInt8) : Prop :=
  ∃ char, bytes <+: utf8EncodeChar char

/-- Some character begins with these bytes and has more. -/
def Truncated (bytes : List UInt8) : Prop :=
  ∃ char, bytes <+: utf8EncodeChar char ∧ bytes ≠ utf8EncodeChar char

/-- A lead byte and some bytes behind it are there, and in these ranges lie the others. -/
def Expects (current : List UInt8) (expected : List Range) : Prop :=
  ∃ lead behind seen, current = lead :: seen ∧ followers? lead = some (behind ++ expected) ∧
    Fits behind seen

variable {current front rest : List UInt8} {expected : List Range} {range : Range} {b : UInt8}

theorem Begins.of_front {longer : List UInt8} (h : Begins longer) (shorter : current <+: longer) :
    Begins current := by
  obtain ⟨char, longer⟩ := h
  exact ⟨char, shorter.trans longer⟩

theorem Truncated.begins (h : Truncated current) : Begins current := by
  obtain ⟨char, shorter, -⟩ := h
  exact ⟨char, shorter⟩

theorem truncated_nil : Truncated [] :=
  ⟨'a', List.nil_prefix, String.utf8EncodeChar_ne_nil.symm⟩

theorem Expects.exists_char_iff (h : Expects current expected) (rest : List UInt8) :
    (∃ char, utf8EncodeChar char = current ++ rest) ↔ Fits expected rest := by
  obtain ⟨lead, behind, seen, rfl, leads, fits⟩ := h
  rw [List.cons_append, Utf8.exists_char_iff, leads]
  simp [fits_append_iff fits]

theorem expects_char (char : Char) : Expects (utf8EncodeChar char) [] := by
  obtain ⟨lead, tail, same⟩ :=
    List.exists_cons_of_ne_nil (String.utf8EncodeChar_ne_nil (c := char))
  obtain ⟨ranges, leads, fits⟩ := followers?_of_char same
  exact ⟨lead, ranges, tail, same, by simpa using leads, fits⟩

/-- No character is the front of another one. -/
theorem char_eq_of_front {char char' : Char}
    (h : utf8EncodeChar char <+: utf8EncodeChar char') :
    utf8EncodeChar char = utf8EncodeChar char' := by
  obtain ⟨rest, same⟩ := h
  have fits := ((expects_char char).exists_char_iff rest).mp ⟨char', same.symm⟩
  cases fits
  simpa using same

theorem Truncated.not_front (h : Truncated current) (char : Char) :
    ¬ utf8EncodeChar char <+: current := by
  obtain ⟨whole, shorter, other⟩ := h
  intro inside
  have same := char_eq_of_front (inside.trans shorter)
  rw [← same] at shorter other
  exact other (shorter.eq_of_length_le inside.length_le)

theorem Expects.step (h : Expects current (range :: expected)) (inside : range.contains b) :
    Expects (current ++ [b]) expected := by
  obtain ⟨lead, behind, seen, rfl, leads, fits⟩ := h
  refine ⟨lead, behind ++ [range], seen ++ [b], rfl, by simpa using leads, ?_⟩
  exact List.rel_append fits (.cons inside .nil)

theorem Expects.truncated (h : Expects current (range :: expected)) : Truncated current := by
  -- The lowest bytes of the ranges end the character.
  have whole : Fits (range :: expected) ((range :: expected).map (·.low)) := by
    obtain ⟨lead, behind, seen, -, leads, -⟩ := h
    have low := followers?_contains_low leads
    unfold Fits
    rw [List.forall₂_map_right_iff, List.forall₂_same]
    exact fun range mem => low range (List.mem_append_right behind mem)
  obtain ⟨char, same⟩ := (h.exists_char_iff _).mpr whole
  exact ⟨char, ⟨_, same.symm⟩, by simp [same]⟩

theorem Expects.not_begins (h : Expects current (range :: expected))
    (outside : ¬ range.contains b) : ¬ Begins (current ++ [b]) := by
  rintro ⟨char, rest, same⟩
  rw [List.append_assoc] at same
  cases (h.exists_char_iff _).mp ⟨char, same.symm⟩ with
  | cons inside _ => exact outside inside

theorem not_begins_of_followers (h : followers? b = none) : ¬ Begins [b] := by
  rintro ⟨char, rest, same⟩
  obtain ⟨ranges, leads, -⟩ := followers?_of_char same.symm
  rw [h] at leads
  cases leads

/-! ## Texts -/

/-- The forms of some characters, one after the other. -/
def WellFormed (bytes : List UInt8) : Prop :=
  ∃ chars : List Char, chars.flatMap utf8EncodeChar = bytes

theorem wellFormed_nil : WellFormed [] :=
  ⟨[], rfl⟩

theorem WellFormed.append_char (h : WellFormed front) (char : Char) :
    WellFormed (front ++ utf8EncodeChar char) := by
  obtain ⟨chars, rfl⟩ := h
  exact ⟨chars ++ [char], by simp⟩

theorem WellFormed.cancel (h : WellFormed front) (whole : WellFormed (front ++ rest)) :
    WellFormed rest := by
  obtain ⟨chars, rfl⟩ := h
  induction chars with
  | nil => simpa using whole
  | cons char chars ih =>
    obtain ⟨all, same⟩ := whole
    cases all with
    | nil => simp [String.utf8EncodeChar_ne_nil] at same
    | cons other others =>
      rw [List.flatMap_cons, List.flatMap_cons, List.append_assoc] at same
      have first : utf8EncodeChar other = utf8EncodeChar char := by
        rcases List.prefix_or_prefix_of_prefix (List.prefix_append _ _) ⟨_, same.symm⟩ with h | h
        · exact char_eq_of_front h
        · exact (char_eq_of_front h).symm
      rw [first] at same
      exact ih ⟨others, List.append_cancel_left same⟩

/-! ## The first flaw -/

/-- The sizes of those fronts of the bytes that have the property. -/
def frontSizes (P : List UInt8 → Prop) (bytes : List UInt8) : Set Nat :=
  {size | size ≤ bytes.length ∧ P (bytes.take size)}

/-- The flaw lies behind the longest text in front. It is a character that the end cuts off, or else
it has all bytes that a character may begin with, and one byte if there are none. -/
inductive Flaw.Of (bytes : List UInt8) : Flaw → Prop where
  | incomplete {index : Nat} (text : IsGreatest (frontSizes WellFormed bytes) index)
      (cut : Truncated (bytes.drop index)) : Of bytes (.incomplete index)
  | invalid {index seen : Nat} (text : IsGreatest (frontSizes WellFormed bytes) index)
      (uncut : ¬ Truncated (bytes.drop index))
      (longest : IsGreatest (frontSizes Begins (bytes.drop index)) seen) :
      Of bytes (.invalid index (max 1 seen))

theorem wellFormed_greatest (h : WellFormed front) (none : ∀ char, ¬ utf8EncodeChar char <+: rest) :
    IsGreatest (frontSizes WellFormed (front ++ rest)) front.length := by
  refine ⟨⟨by simp, by simpa using h⟩, ?_⟩
  rintro size ⟨fits, whole⟩
  by_contra longer
  obtain ⟨more, rfl⟩ : ∃ more, size = front.length + (more + 1) :=
    ⟨size - front.length - 1, by omega⟩
  rw [List.take_length_add_append] at whole
  obtain ⟨chars, same⟩ := h.cancel whole
  cases chars with
  | nil =>
    have := congrArg List.length same
    simp at this fits
    omega
  | cons char chars =>
    have first : utf8EncodeChar char <+: rest.take (more + 1) := ⟨_, same⟩
    exact none char (first.trans (List.take_prefix _ _))

theorem begins_greatest (h : Begins current) (broken : ¬ Begins (current ++ [b])) :
    IsGreatest (frontSizes Begins (current ++ b :: rest)) current.length := by
  refine ⟨⟨by simp, by simpa using h⟩, ?_⟩
  rintro size ⟨-, begins⟩
  by_contra longer
  obtain ⟨more, rfl⟩ : ∃ more, size = current.length + (more + 1) :=
    ⟨size - current.length - 1, by omega⟩
  rw [List.take_length_add_append] at begins
  exact broken (begins.of_front ⟨rest.take more, by simp⟩)

theorem Flaw.of_truncated (text : WellFormed front) (cut : Truncated current) :
    Of (front ++ current) (.incomplete front.length) :=
  .incomplete (wellFormed_greatest text cut.not_front) (by simpa using cut)

theorem Flaw.of_broken (text : WellFormed front) (cut : Truncated current)
    (broken : ¬ Begins (current ++ [b])) (rest : List UInt8) :
    Of (front ++ (current ++ b :: rest)) (.invalid front.length (max 1 current.length)) := by
  have longer : current ++ [b] <+: current ++ b :: rest := by simp
  refine .invalid (wellFormed_greatest text fun char inside => ?_) ?_ ?_
  · rcases List.prefix_or_prefix_of_prefix inside longer with short | long
    · rcases List.prefix_concat_iff.mp short with same | short
      · exact broken ⟨char, same ▸ List.prefix_rfl⟩
      · exact cut.not_front char short
    · exact broken ⟨char, long⟩
  · rw [List.drop_left]
    exact fun cut => broken (cut.begins.of_front longer)
  · rw [List.drop_left]
    exact begins_greatest cut.begins broken

/-- Where a walk stands: behind a text, and in a character or at the end of one. -/
def Stands (front current : List UInt8) (expected : List Range) : Prop :=
  WellFormed front ∧ (current = [] ∧ expected = [] ∨ Expects current expected)

theorem Stands.wellFormed (h : Stands front current []) : WellFormed (front ++ current) := by
  obtain ⟨text, ⟨rfl, -⟩ | h⟩ := h
  · simpa using text
  · obtain ⟨char, same⟩ := (h.exists_char_iff []).mpr .nil
    rw [List.append_nil] at same
    rw [← same]
    exact text.append_char char

theorem walk_of (h : Stands front current expected) (rest : List UInt8) :
    (walk front.length current.length expected rest).Of (front ++ (current ++ rest)) := by
  induction rest generalizing front current expected with
  | nil =>
    unfold walk
    rw [List.append_nil]
    cases expected with
    | nil => simpa using Flaw.of_truncated h.wellFormed truncated_nil
    | cons range expected =>
      obtain ⟨text, ⟨-, no⟩ | h⟩ := h
      · cases no
      · simpa using Flaw.of_truncated text h.truncated
  | cons b rest ih =>
    unfold walk
    cases expected with
    | nil =>
      dsimp only
      cases leads : followers? b with
      | none =>
        have broken := not_begins_of_followers leads
        simpa using Flaw.of_broken h.wellFormed truncated_nil broken rest
      | some ranges =>
        have started : Expects [b] ranges := ⟨b, [], [], rfl, leads, .nil⟩
        simpa using ih ⟨h.wellFormed, .inr started⟩
    | cons range expected =>
      obtain ⟨text, ⟨-, no⟩ | h⟩ := h
      · cases no
      dsimp only
      split
      next inside => simpa using ih ⟨text, .inr (h.step inside)⟩
      next outside =>
        have led : 1 ≤ current.length := by
          obtain ⟨_, _, _, rfl, -⟩ := h
          simp
        have broken := Flaw.of_broken text h.truncated (h.not_begins outside) rest
        rwa [max_eq_right led] at broken

theorem firstFlaw_of (bytes : List UInt8) : (firstFlaw bytes).Of bytes := by
  have start : Stands [] [] [] := ⟨wellFormed_nil, .inl ⟨rfl, rfl⟩⟩
  exact walk_of start bytes

-- Three bytes of a character are there, and the fourth one starts another character.
example : firstFlaw [0x61, 0xf0, 0x90, 0x80, 0x62] = .invalid 1 3 := by
  decide

end TaggedWire.Utf8
