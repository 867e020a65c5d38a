import Mathlib.Data.Char
import Mathlib.Data.List.Basic
import Assay.Proofs.Patterns
import Assay.Proofs.Scalars

/-!
# Texts in a case format

Without its pattern, a case format is told by how a text begins and by the words that it falls into
when it is split at the joints (`CaseFormat.Describes`). The repetition in a pattern goes through
words with a joint before each of them, and a split at the joints gives just these words back
(`CaseFormat.joined_iff`). So the pattern of a format is found in the texts that the format
describes and in no others (`CaseFormat.occursIn_iff`), and its check lets just these pass. A text
without low lines is in kebab case as it is in snake case once low lines take the place of its
hyphens (`Check.run_inFormat`).
-/
namespace Assay

namespace CaseFormat

/-! ## What the formats describe -/

/-- The text begins with a character of a sort. -/
def BeginsWith (sort : Char → Bool) (chars : List Char) : Prop := chars.head?.any sort = true

/-- A digit or a small letter, both of ASCII. -/
def isWordChar (char : Char) : Bool := char.isDigit || char.isLower

/-- Digits and small letters of ASCII, one at least. -/
def IsWord (chars : List Char) : Prop := chars ≠ [] ∧ chars.all isWordChar = true

/-- Nothing but words between the joints, and a small letter first. -/
def Joined (joint : Char) (chars : List Char) : Prop :=
  BeginsWith Char.isLower chars ∧ ∀ piece ∈ chars.splitOn joint, IsWord piece

/-- Nothing but digits and letters of ASCII, and a letter of a sort first. -/
def Merged (sort : Char → Bool) (chars : List Char) : Prop :=
  BeginsWith sort chars ∧ chars.all Char.isAlphanum = true

/-- What texts a format is about. -/
def Describes : CaseFormat → String → Prop
  | camel, text => Merged Char.isLower text.toList
  | kebab, text => Joined '-' text.toList
  | pascal, text => Merged Char.isUpper text.toList
  | snake, text => Joined '_' text.toList

instance (sort : Char → Bool) : DecidablePred (BeginsWith sort) :=
  fun _ => inferInstanceAs (Decidable (_ = _))

instance : DecidablePred IsWord := fun _ => inferInstanceAs (Decidable (_ ∧ _))

instance (joint : Char) : DecidablePred (Joined joint) :=
  fun _ => inferInstanceAs (Decidable (_ ∧ _))

instance (sort : Char → Bool) : DecidablePred (Merged sort) :=
  fun _ => inferInstanceAs (Decidable (_ ∧ _))

instance : (format : CaseFormat) → DecidablePred format.Describes
  | camel | pascal => fun _ => inferInstanceAs (Decidable (Merged _ _))
  | kebab | snake => fun _ => inferInstanceAs (Decidable (Joined _ _))

/-! ## What the patterns match -/

variable {joint char : Char} {before chars after : List Char}

/-- What the small letters of ASCII are. -/
theorem isLower_eq : char.isLower = (decide ('a'.val ≤ char.val) && decide (char.val ≤ 'z'.val)) :=
  rfl

/-- What the capital letters of ASCII are. -/
theorem isUpper_eq : char.isUpper = decide ('A'.val ≤ char.val ∧ char.val ≤ 'Z'.val) := rfl

/-- What the letters of ASCII are. -/
theorem isAlpha_eq : char.isAlpha = (char.isUpper || char.isLower) := rfl

/-- The small letters of a pattern are those of ASCII. -/
theorem contains_small : CharSet.contains ⟨[('a', 'z')], false⟩ char = char.isLower := by
  simp [CharSet.contains, isLower_eq, Char.le_def]

/-- The capital letters of a pattern are those of ASCII. -/
theorem contains_capital : CharSet.contains ⟨[('A', 'Z')], false⟩ char = char.isUpper := by
  simp [CharSet.contains, isUpper_eq, Char.le_def]

/-- A set of one character has no other. -/
theorem contains_single : (CharSet.single joint).contains char = true ↔ char = joint := by
  have between : joint ≤ char ∧ char ≤ joint ↔ char = joint := le_antisymm_iff.symm.trans eq_comm
  simp [CharSet.contains, CharSet.single, between]

/-- The digits and letters of a pattern are those of ASCII. -/
theorem contains_alphanumeric :
    CharSet.contains ⟨[('0', '9'), ('A', 'Z'), ('a', 'z')], false⟩ char = char.isAlphanum := by
  rw [Char.isAlphanum, Bool.or_comm]
  simp [CharSet.contains, isAlpha_eq, isUpper_eq, isLower_eq, Char.isDigit, Char.le_def]

/-- The digits and small letters of a pattern are the characters of words. -/
theorem contains_smallAlphanumeric :
    CharSet.contains ⟨[('0', '9'), ('a', 'z')], false⟩ char = isWordChar char := by
  simp [CharSet.contains, isWordChar, isLower_eq, Char.isDigit, Char.le_def]

/-- A word and others after it, each behind a joint. -/
theorem intercalate_cons (first : List Char) (words : List (List Char)) :
    [joint].intercalate (first :: words) = first ++ words.flatMap (joint :: ·) := by
  induction words generalizing first with
  | nil => simp
  | cons word rest ih =>
    rw [List.intercalate_cons_cons, ih, List.flatMap_cons, List.append_assoc]
    rfl

/-- Joined words are a small letter with the rest of its word, and other words behind joints. -/
theorem joined_iff (outside : isWordChar joint = false) : Joined joint chars ↔
    ∃ (char : Char) (first : List Char) (words : List (List Char)),
      chars = char :: (first ++ words.flatMap (joint :: ·)) ∧ char.isLower = true ∧
        first.all isWordChar = true ∧ ∀ word ∈ words, IsWord word := by
  constructor
  · rintro ⟨begins, all⟩
    -- The first piece is a word, and it begins as the whole text does.
    obtain ⟨piece, words, split⟩ := List.exists_cons_of_ne_nil (List.splitOn_ne_nil joint chars)
    have whole : [joint].intercalate (chars.splitOn joint) = chars := List.intercalate_splitOn joint
    rw [split, intercalate_cons] at whole
    rw [split] at all
    obtain ⟨⟨filled, inside⟩, others⟩ := List.forall_mem_cons.mp all
    obtain ⟨char, first, rfl⟩ := List.exists_cons_of_ne_nil filled
    subst whole
    rw [List.all_cons, Bool.and_eq_true] at inside
    exact ⟨char, first, words, rfl, begins, inside.2, others⟩
  · rintro ⟨char, first, words, rfl, begins, inside, others⟩
    -- No word has a joint in it, so the split gives the words back.
    have all : ∀ word ∈ (char :: first) :: words, IsWord word := by
      refine List.forall_mem_cons.mpr ⟨⟨List.cons_ne_nil _ _, ?_⟩, others⟩
      rw [List.all_cons, inside, Bool.and_true, isWordChar, begins, Bool.or_true]
    have free : ∀ word ∈ (char :: first) :: words, joint ∉ word := by
      intro word listed within
      have inside := List.all_eq_true.mp (all word listed).2 joint within
      rw [outside] at inside
      cases inside
    have split := List.splitOn_intercalate joint free (List.cons_ne_nil _ _)
    rw [intercalate_cons] at split
    exact ⟨begins, split.symm ▸ all⟩

/-- Any number of digits and small letters. -/
theorem matches_star_smallAlphanumeric :
    (Pattern.star smallAlphanumeric).Matches before chars after ↔ chars.all isWordChar = true := by
  rw [smallAlphanumeric, Pattern.matches_star_ofSet, List.all_eq_true]
  simp only [contains_smallAlphanumeric]

/-- A joint and then a word. -/
theorem matches_joint_word :
    (Pattern.seq (.ofSet (.single joint)) (.plus smallAlphanumeric)).Matches before chars after ↔
      ∃ word, joint :: word = chars ∧ IsWord word := by
  simp only [Pattern.matches_seq_ofSet, smallAlphanumeric, Pattern.matches_plus_ofSet, IsWord,
    contains_smallAlphanumeric, contains_single, List.all_eq_true]
  constructor
  · rintro ⟨_, word, rfl, rfl, words⟩
    exact ⟨word, rfl, words⟩
  · rintro ⟨word, rfl, words⟩
    exact ⟨joint, word, rfl, rfl, words⟩

/-- Any number of words, each behind a joint. -/
theorem matches_joint_words :
    (Pattern.star (.seq (.ofSet (.single joint)) (.plus smallAlphanumeric))).Matches before chars
      after ↔ ∃ words : List (List Char), words.flatMap (joint :: ·) = chars ∧
        ∀ word ∈ words, IsWord word :=
  Pattern.matches_star_iff_flatMap fun _ _ _ => matches_joint_word

/-- A small letter with the rest of its word, and then other words behind joints. -/
theorem matches_joined (outside : isWordChar joint = false) :
    (Pattern.sequence [small, .star smallAlphanumeric,
      .star (.seq (.ofSet (.single joint)) (.plus smallAlphanumeric))]).Matches before chars after ↔
      Joined joint chars := by
  rw [joined_iff outside]
  change (Pattern.seq small (.seq _ (.seq _ .empty))).Matches before chars after ↔ _
  rw [small, Pattern.matches_seq_ofSet]
  constructor
  · rintro ⟨char, _, rfl, begins, first, _, rfl, inside, others⟩
    rw [contains_small] at begins
    rw [matches_star_smallAlphanumeric] at inside
    rw [Pattern.matches_seq_empty, matches_joint_words] at others
    obtain ⟨words, rfl, all⟩ := others
    exact ⟨char, first, words, rfl, begins, inside, all⟩
  · rintro ⟨char, first, words, rfl, begins, inside, all⟩
    refine ⟨char, _, rfl, contains_small.trans begins, first, _, rfl, ?_, ?_⟩
    · exact matches_star_smallAlphanumeric.mpr inside
    · rw [Pattern.matches_seq_empty, matches_joint_words]
      exact ⟨words, rfl, all⟩

/-- A letter of a sort and then digits and letters. -/
theorem matches_merged {front : CharSet} {sort : Char → Bool}
    (same : ∀ char, front.contains char = sort char)
    (alphanumeric_of : ∀ char, sort char = true → char.isAlphanum = true) :
    (Pattern.sequence [.ofSet front, .star alphanumeric]).Matches before chars after ↔
      Merged sort chars := by
  change (Pattern.seq _ (.seq _ .empty)).Matches before chars after ↔ _
  simp only [Pattern.matches_seq_ofSet, Pattern.matches_seq_empty, alphanumeric,
    Pattern.matches_star_ofSet, same, contains_alphanumeric]
  constructor
  · rintro ⟨char, rest, rfl, begins, others⟩
    refine ⟨begins, ?_⟩
    rw [List.all_cons, alphanumeric_of char begins, Bool.true_and]
    exact List.all_eq_true.mpr others
  · rintro ⟨begins, all⟩
    cases chars with
    | nil => cases begins
    | cons char rest =>
      rw [List.all_cons, Bool.and_eq_true, List.all_eq_true] at all
      exact ⟨char, rest, rfl, begins, all.2⟩

/-- The pattern of a format is found in just the texts that the format describes. -/
theorem occursIn_iff (format : CaseFormat) (text : String) :
    format.pattern.occursIn text = true ↔ format.Describes text := by
  cases format with
  | camel =>
    have letters : ∀ char : Char, char.isLower = true → char.isAlphanum = true := by
      simp +contextual [Char.isAlphanum, isAlpha_eq]
    exact (Pattern.occursIn_anchored rfl text).trans
      (matches_merged (fun _ => contains_small) letters)
  | kebab => exact (Pattern.occursIn_anchored rfl text).trans (matches_joined rfl)
  | pascal =>
    have letters : ∀ char : Char, char.isUpper = true → char.isAlphanum = true := by
      simp +contextual [Char.isAlphanum, isAlpha_eq]
    exact (Pattern.occursIn_anchored rfl text).trans
      (matches_merged (fun _ => contains_capital) letters)
  | snake => exact (Pattern.occursIn_anchored rfl text).trans (matches_joined rfl)

/-! ## Formats side by side -/

/-- No text is both in camel and in pascal case: it cannot begin both with a small letter and with a
capital. -/
theorem not_camel_and_pascal (text : String) :
    ¬ (camel.Describes text ∧ pascal.Describes text) := by
  rintro ⟨⟨small, -⟩, ⟨capital, -⟩⟩
  obtain ⟨char, first, lower⟩ := (Option.any_eq_true _ _).mp small
  rw [BeginsWith, first, Option.any_some] at capital
  simp only [isLower_eq, isUpper_eq, Bool.and_eq_true, decide_eq_true_eq,
    UInt32.le_iff_toNat_le, Char.reduceVal, UInt32.reduceToNat] at lower capital
  omega

/-- A low line for a hyphen, and any other character as it is. -/
def rejoined (char : Char) : Char := if char = '-' then '_' else char

/-- A sort of characters that makes no difference between hyphens and low lines makes none between a
text and the rejoined one. -/
theorem rejoined_alike (sort : Char → Bool) (alike : sort '_' = sort '-') (char : Char) :
    sort (rejoined char) = sort char := by
  by_cases hyphen : char = '-'
  · subst hyphen
    exact alike
  · rw [rejoined, if_neg hyphen]

/-- Where there were no low lines, those that take the place of hyphens split what the hyphens
split. -/
theorem splitOn_rejoined (plain : '_' ∉ chars) :
    (chars.map rejoined).splitOn '_' = (chars.splitOn '-').map (List.map rejoined) := by
  induction chars with
  | nil => rfl
  | cons char rest ih =>
    obtain ⟨other, others⟩ := List.ne_and_not_mem_of_not_mem_cons plain
    rw [List.map_cons, List.splitOn_cons_eq_if_modifyHead, List.splitOn_cons_eq_if_modifyHead,
      ih others]
    by_cases hyphen : char = '-'
    · subst hyphen
      rfl
    · have kept : rejoined char = char := if_neg hyphen
      rw [kept, if_neg (by simpa using other.symm), if_neg (by simpa using hyphen)]
      cases rest.splitOn '-' with
      | nil => rfl
      | cons piece pieces => simp [kept]

/-- Of the texts without low lines, those in kebab case are in snake case with low lines for their
hyphens, and no others are. -/
theorem kebab_iff_snake {text : String} (plain : '_' ∉ text.toList) :
    kebab.Describes text ↔ snake.Describes (text.map rejoined) := by
  have words : ∀ piece, IsWord (List.map rejoined piece) ↔ IsWord piece := by
    intro piece
    simp [IsWord, Function.comp_def, rejoined_alike isWordChar rfl]
  simp only [Describes, Joined, BeginsWith, String.toList_map, splitOn_rejoined plain,
    List.forall_mem_map, words, List.head?_map, Option.any_map, rejoined_alike Char.isLower rfl]

end CaseFormat

variable {κ : Type} {host : Host κ} {path : Path} {scope : Scope}

/-- The check of a rule lets just those texts pass that the rule allows. -/
theorem Check.run_text_iff {rule : TextRule} {text : String} :
    (Check.text rule).run host (.string text) path scope = .ok () ↔ rule.Allows text := by
  rw [← rule.holds_iff]
  cases held : rule.holds text <;>
    simp [Check.run, Check.objection?, Value.string?, Check.reasonUnless, held]

/-- The check of a case format lets just those texts pass that the format describes: in kebab and
snake case, texts that begin with a small letter and that hyphens or low lines split into nothing but
words; in camel and pascal case, texts of digits and letters that begin with a small letter or a
capital. So no text passes both in camel and in pascal case, and one without low lines passes in kebab
case just when it passes in snake case with low lines for its hyphens. -/
theorem Check.run_inFormat (host : Host κ) (path : Path) (scope : Scope) :
    (∀ format text, (Check.text (.inFormat format)).run host (.string text) path scope = .ok () ↔
      format.Describes text) ∧
    (∀ text, ¬ ((Check.text (.inFormat .camel)).run host (.string text) path scope = .ok () ∧
      (Check.text (.inFormat .pascal)).run host (.string text) path scope = .ok ())) ∧
    ∀ text : String, '_' ∉ text.toList →
      ((Check.text (.inFormat .kebab)).run host (.string text) path scope = .ok () ↔
        (Check.text (.inFormat .snake)).run host (.string (text.map CaseFormat.rejoined)) path
          scope = .ok ()) := by
  have passes : ∀ format text,
      (Check.text (.inFormat format)).run host (.string text) path scope = .ok () ↔
        format.Describes text := by
    intro format text
    exact Check.run_text_iff.trans (CaseFormat.occursIn_iff format text)
  refine ⟨passes, ?_, ?_⟩
  · intro text
    rw [passes, passes]
    exact CaseFormat.not_camel_and_pascal text
  · intro text plain
    rw [passes, passes]
    exact CaseFormat.kebab_iff_snake plain

/-- The notes of a release, named in every format. A joint too many or a line break at the end is
refused, and so is a letter that is not of ASCII. -/
theorem Check.run_inFormat_release :
    let passes := fun format text =>
      (Check.text (.inFormat format)).run events (.string text) .root (.new .strict) = .ok ()
    '_' ∉ "release-2-notes".toList ∧ passes .kebab "release-2-notes" ∧
      passes .snake "release_2_notes" ∧ ¬ passes .kebab "release--notes" ∧
      ¬ passes .snake "release_notes\n" ∧ passes .camel "release2Notes" ∧
      ¬ passes .pascal "release2Notes" ∧ ¬ passes .pascal "Résumé" := by
  intro passes
  obtain ⟨described, exclusive, rejoins⟩ := run_inFormat events .root (.new .strict)
  have accepted : ∀ format text, format.Describes text → passes format text :=
    fun format text => (described format text).mpr
  have refused : ∀ format text, ¬ format.Describes text → ¬ passes format text :=
    fun format text => mt (described format text).mp
  have plain : '_' ∉ "release-2-notes".toList := by decide +kernel
  have kebab := accepted .kebab "release-2-notes" (by decide +kernel)
  have snake := (rejoins "release-2-notes" plain).mp kebab
  have rejoined : "release-2-notes".map CaseFormat.rejoined = "release_2_notes" := by decide +kernel
  rw [rejoined] at snake
  have camel := accepted .camel "release2Notes" (by decide +kernel)
  have doubled := refused .kebab "release--notes" (by decide +kernel)
  have broken := refused .snake "release_notes\n" (by decide +kernel)
  have accented := refused .pascal "Résumé" (by decide +kernel)
  exact ⟨plain, kebab, snake, doubled, broken, camel, fun pascal => exclusive _ ⟨camel, pascal⟩,
    accented⟩

end Assay
