import Assay.Pattern.Basic

/-!
# What patterns match

A reading says which parts of a text may be taken, each between what comes before it and what comes
after it. A pattern matches what its reading takes (`Pattern.Matches`); only the tests for the ends
look at the rest of the text. A mark stands for attempts that have begun, and they can take some of
what follows and then end (`Pattern.Resumes`). Moving the marks over a character is exact: what
attempts can take after it is what they could take with it, whether they had begun before or begin
with it (`Pattern.tracks`). So, by induction on the text, a search finds a pattern just where
it matches some part of the text (`Pattern.occursIn_iff`).
-/
namespace Assay

/-! ## Readings -/

/-- Which parts of a text may be taken, given what comes before, the part, and what comes after. -/
abbrev Reading := List Char → List Char → List Char → Prop

namespace Reading

/-- Any part may be taken. -/
def anything : Reading := fun _ _ _ => True

/-- Two readings in turn take a part when one takes the front of it and the other what is left. -/
def inTurn (first second : Reading) : Reading := fun before part after =>
  ∃ left right, left ++ right = part ∧ first before left (right ++ after) ∧
    second (before ++ left) right after

/-- A reading takes the part bit by bit, any number of times. -/
inductive Repeats (reading : Reading) : Reading where
  /-- Nothing is left. -/
  | stop {before after} : Repeats reading before [] after
  /-- A bit is taken from the front. -/
  | again {before left right after} (here : reading before left (right ++ after))
    (later : Repeats reading (before ++ left) right after) :
    Repeats reading before (left ++ right) after

/-- What a reading takes after a character, given that it takes the character with it. -/
def past (reading : Reading) (before : List Char) (char : Char) : Reading :=
  fun _ part after => reading before (char :: part) after

variable {reading first second : Reading} {char : Char} {before part after : List Char}

/-- Nothing is asked of a part. -/
theorem anything_apply : anything before part after = True := rfl

/-- Nothing is asked after a character either. -/
theorem past_anything : anything.past before char = anything := rfl

/-- In turn, two readings take nothing when both of them do. -/
theorem inTurn_nil :
    first.inTurn second before [] after ↔ first before [] after ∧ second before [] after := by
  constructor
  · rintro ⟨left, right, whole, here, later⟩
    obtain ⟨rfl, rfl⟩ := List.append_eq_nil_iff.mp whole
    rw [List.append_nil] at later
    exact ⟨here, later⟩
  · rintro ⟨here, later⟩
    exact ⟨[], [], rfl, here, (List.append_nil before).symm ▸ later⟩

/-- A character is taken by the second of two readings if the first takes nothing, and else by the
first. -/
theorem inTurn_cons : first.inTurn second before (char :: part) after ↔
    first before [] (char :: (part ++ after)) ∧ second before (char :: part) after ∨
      (first.past before char).inTurn second (before ++ [char]) part after := by
  constructor
  · rintro ⟨left, right, whole, here, later⟩
    cases left with
    | nil =>
      obtain rfl : right = char :: part := whole
      rw [List.append_nil] at later
      exact .inl ⟨here, later⟩
    | cons taken left =>
      obtain ⟨rfl, rfl⟩ := List.cons.inj whole
      refine .inr ⟨left, right, rfl, here, ?_⟩
      rwa [List.append_assoc]
  · rintro (⟨here, later⟩ | ⟨left, right, rfl, here, later⟩)
    · refine ⟨[], char :: part, rfl, here, ?_⟩
      rwa [List.append_nil]
    · refine ⟨char :: left, right, rfl, here, ?_⟩
      rwa [List.append_assoc] at later

/-- A reading that is one of two, the second under a condition, is so in turn with another. -/
theorem inTurn_or {later : Reading} {condition : Prop}
    (split : ∀ part after,
      reading before part after ↔ first before part after ∨ condition ∧ second before part after) :
    reading.inTurn later before part after ↔
      first.inTurn later before part after ∨ condition ∧ second.inTurn later before part after := by
  simp only [inTurn, split]
  constructor
  · rintro ⟨left, right, whole, here | ⟨held, here⟩, rest⟩
    · exact .inl ⟨left, right, whole, here, rest⟩
    · exact .inr ⟨held, left, right, whole, here, rest⟩
  · rintro (⟨left, right, whole, here, rest⟩ | ⟨held, left, right, whole, here, rest⟩)
    · exact ⟨left, right, whole, .inl here, rest⟩
    · exact ⟨left, right, whole, .inr ⟨held, here⟩, rest⟩

/-- Bits that are empty aside, the first bit takes the first character. -/
theorem repeats_cons : Repeats reading before (char :: part) after ↔
    (reading.past before char).inTurn (Repeats reading) (before ++ [char]) part after := by
  constructor
  · intro taken
    generalize whole : char :: part = chars at taken
    induction taken with
    | stop => cases whole
    | @again before left right after here later ih =>
      cases left with
      | nil =>
        rw [List.append_nil] at ih
        exact ih whole
      | cons first left =>
        obtain ⟨rfl, rfl⟩ := List.cons.inj whole
        refine ⟨left, right, rfl, here, ?_⟩
        rwa [List.append_assoc]
  · rintro ⟨left, right, rfl, here, later⟩
    rw [List.append_assoc] at later
    change Repeats reading before ((char :: left) ++ right) after
    exact .again here later

end Reading

namespace Pattern

variable {pattern : Pattern} {char : Char} {entered : Bool} {before part after : List Char}

/-! ## Matches -/

/-- What a pattern matches. Its marks play no part. -/
def Matches : Pattern → Reading
  | empty => fun _ part _ => part = []
  | start => fun before part _ => before = [] ∧ part = []
  | finish => fun _ part after => part = [] ∧ after = []
  | one set _ => fun _ part _ => ∃ char, [char] = part ∧ set.contains char = true
  | seq first second => first.Matches.inTurn second.Matches
  | alt first second => fun before part after =>
    first.Matches before part after ∨ second.Matches before part after
  | star pattern => .Repeats pattern.Matches

/-- Whether the empty text is matched depends on the ends only. -/
theorem accepts_iff (pattern : Pattern) (before after : List Char) :
    pattern.accepts before.isEmpty after.isEmpty = true ↔ pattern.Matches before [] after := by
  induction pattern with
  | seq first second ihFirst ihSecond =>
    simp [accepts, Matches, Reading.inTurn_nil, ihFirst, ihSecond]
  | alt first second ihFirst ihSecond => simp [accepts, Matches, ihFirst, ihSecond]
  | star pattern => simp [accepts, Matches, Reading.Repeats.stop]
  | _ => simp [accepts, Matches]

/-- Moving marks changes nothing in what is matched. -/
theorem matches_advance (atStart : Bool) :
    (pattern.advance char atStart entered).Matches = pattern.Matches := by
  induction pattern generalizing entered with
  | seq first second ihFirst ihSecond => simp only [advance, Matches, ihFirst, ihSecond]
  | alt first second ihFirst ihSecond => simp only [advance, Matches, ihFirst, ihSecond]
  | star pattern ih => simp only [advance, Matches, ih]
  | _ => rfl

/-! ## Marks -/

/-- What the attempts marked in a pattern can still take, given what has been read. -/
def Resumes : Pattern → Reading
  | empty | start | finish => fun _ _ _ => False
  | one _ marked => fun _ part _ => marked = true ∧ part = []
  | seq first second => fun before part after =>
    first.Resumes.inTurn second.Matches before part after ∨ second.Resumes before part after
  | alt first second => fun before part after =>
    first.Resumes before part after ∨ second.Resumes before part after
  | star pattern => pattern.Resumes.inTurn (.Repeats pattern.Matches)

/-- Whether some attempt is marked in a pattern. -/
def isMarked : Pattern → Bool
  | empty | start | finish => false
  | one _ marked => marked
  | seq first second | alt first second => first.isMarked || second.isMarked
  | star pattern => pattern.isMarked

/-- Only where something has been read are there marks. -/
def Begun (pattern : Pattern) (before : List Char) : Prop :=
  before = [] → pattern.isMarked = false

/-- After a character there may be marks. -/
theorem begun_concat (pattern : Pattern) (before : List Char) (char : Char) :
    pattern.Begun (before ++ [char]) := by
  intro start
  simp at start

/-- The marks of a sequence, and those of alternatives too, are the marks of the two parts. -/
theorem Begun.parts {first second : Pattern} (begun : (seq first second).Begun before) :
    first.Begun before ∧ second.Begun before := by
  have unmarked : before = [] → first.isMarked = false ∧ second.isMarked = false :=
    fun start => Bool.or_eq_false_iff.mp (begun start)
  exact ⟨fun start => (unmarked start).1, fun start => (unmarked start).2⟩

/-- Without marks no attempt can end. -/
theorem isReached_of_unmarked (unmarked : pattern.isMarked = false) (atEnd : Bool) :
    pattern.isReached atEnd = false := by
  induction pattern <;> simp_all [isReached, isMarked]

/-- Without marks no attempt goes on. -/
theorem not_resumes_of_unmarked (unmarked : pattern.isMarked = false) :
    ¬ pattern.Resumes before part after := by
  induction pattern generalizing before part after with
  | _ => simp_all [Resumes, isMarked, Reading.inTurn]

/-- Some attempt can end where it stands just when the empty text is left for it to take. -/
theorem isReached_iff (begun : pattern.Begun before) (after : List Char) :
    pattern.isReached after.isEmpty = true ↔ pattern.Resumes before [] after := by
  by_cases start : before = []
  · have unmarked := begun start
    simp [isReached_of_unmarked unmarked, not_resumes_of_unmarked unmarked]
  · -- A mark has read a character, so what follows it is never at the start.
    have inside : before.isEmpty = false := by simpa using start
    clear begun
    induction pattern with
    | seq first second ihFirst ihSecond =>
      simp [isReached, Resumes, Reading.inTurn_nil, ihFirst, ihSecond, ← accepts_iff, inside]
    | alt first second ihFirst ihSecond => simp [isReached, Resumes, ihFirst, ihSecond]
    | star pattern ih =>
      simp [isReached, Resumes, Reading.inTurn_nil, ih, Reading.Repeats.stop]
    | _ => simp [isReached, Resumes]

/-- Whether the empty text is matched before a character. -/
theorem accepts_before (pattern : Pattern) (before : List Char) (char : Char) (rest : List Char) :
    pattern.accepts before.isEmpty false = true ↔ pattern.Matches before [] (char :: rest) :=
  pattern.accepts_iff before (char :: rest)

/-- Whether an attempt can end before a character. -/
theorem isReached_before (begun : pattern.Begun before) (char : Char) (rest : List Char) :
    pattern.isReached false = true ↔ pattern.Resumes before [] (char :: rest) :=
  isReached_iff begun (char :: rest)

/-! ## Moving the marks -/

/-- What attempts can take after a character is what they could take with it, if they had begun or,
where the pattern is entered, begin with it. -/
def Tracks (pattern : Pattern) (before : List Char) (char : Char) : Prop :=
  ∀ entered part after,
    (pattern.advance char before.isEmpty entered).Resumes (before ++ [char]) part after ↔
      pattern.Resumes before (char :: part) after ∨
        entered = true ∧ pattern.Matches before (char :: part) after

/-- What the attempts can take in turn with another reading. -/
theorem Tracks.inTurn (tracks : pattern.Tracks before char) (later : Reading) (entered : Bool)
    (part after : List Char) :
    (pattern.advance char before.isEmpty entered).Resumes.inTurn later (before ++ [char]) part
        after ↔
      (pattern.Resumes.past before char).inTurn later (before ++ [char]) part after ∨
        entered = true ∧
          (pattern.Matches.past before char).inTurn later (before ++ [char]) part after :=
  Reading.inTurn_or (tracks entered)

/-- In a sequence, the second pattern is entered where the first takes nothing more before the
character. -/
theorem Tracks.seq {first second : Pattern} (begun : first.Begun before)
    (one : first.Tracks before char) (other : second.Tracks before char) :
    (seq first second).Tracks before char := by
  intro entered part after
  simp only [advance, Resumes, Matches, matches_advance, Reading.inTurn_cons, one.inTurn,
    other _ _ _, Bool.or_eq_true, Bool.and_eq_true,
    first.accepts_before before char (part ++ after), isReached_before begun char (part ++ after)]
  grind

/-- Alternatives are entered together. -/
theorem Tracks.alt {first second : Pattern} (one : first.Tracks before char)
    (other : second.Tracks before char) : (alt first second).Tracks before char := by
  intro entered part after
  simp only [advance, Resumes, Matches, one _ _ _, other _ _ _]
  grind

/-- In a repetition, another one begins where the one before it takes nothing more before the
character. -/
theorem Tracks.star (begun : pattern.Begun before) (inner : pattern.Tracks before char) :
    (star pattern).Tracks before char := by
  intro entered part after
  simp only [advance, Resumes, Matches, matches_advance, Reading.inTurn_cons, inner.inTurn,
    Reading.repeats_cons, Bool.or_eq_true, isReached_before begun char (part ++ after)]
  grind

/-- Moving the marks over a character is exact. -/
theorem tracks (begun : pattern.Begun before) (char : Char) : pattern.Tracks before char := by
  induction pattern with
  | seq first second ihFirst ihSecond =>
    obtain ⟨one, other⟩ := begun.parts
    exact .seq one (ihFirst one) (ihSecond other)
  | alt first second ihFirst ihSecond =>
    obtain ⟨one, other⟩ := begun.parts
    exact .alt (ihFirst one) (ihSecond other)
  | star pattern ih => exact .star begun (ih begun)
  | one set marked =>
    intro entered part after
    simp only [advance, Resumes, Matches]
    grind
  | _ => simp [Tracks, advance, Resumes, Matches]

/-! ## Searches -/

/-- A search succeeds just when some attempt can end further on or some part of what follows is
matched. -/
theorem searchFrom_iff (begun : pattern.Begun before) (rest : List Char) :
    pattern.searchFrom before.isEmpty rest = true ↔
      pattern.Resumes.inTurn .anything before rest [] ∨
        Reading.anything.inTurn (pattern.Matches.inTurn .anything) before rest [] := by
  induction rest generalizing pattern before with
  | nil =>
    have accepted : pattern.accepts before.isEmpty true = true ↔ pattern.Matches before [] [] :=
      pattern.accepts_iff before []
    have reached : pattern.isReached true = true ↔ pattern.Resumes before [] [] :=
      isReached_iff begun []
    simp only [searchFrom, Bool.or_eq_true, accepted, reached, Reading.inTurn_nil,
      Reading.anything_apply, and_true, true_and]
    exact or_comm
  | cons char rest ih =>
    -- The search goes on with the moved marks, which know what the marks and a new attempt do here.
    have inside : (before ++ [char]).isEmpty = false := by simp
    have later := ih (begun_concat (pattern.advance char before.isEmpty true) before char)
    rw [inside, (tracks begun char).inTurn, matches_advance] at later
    simp only [searchFrom, Bool.or_eq_true, pattern.accepts_before before char (rest ++ []),
      isReached_before begun char (rest ++ []), later, Reading.inTurn_cons, Reading.past_anything,
      Reading.anything_apply, and_true, true_and]
    grind

/-- A pattern without marks is found in a text just when it matches some part of it. -/
theorem occursIn_iff (unmarked : pattern.isMarked = false) (text : String) :
    pattern.occursIn text = true ↔ ∃ before part after,
      before ++ (part ++ after) = text.toList ∧ pattern.Matches before part after := by
  have begun : pattern.Begun [] := fun _ => unmarked
  have searched := searchFrom_iff begun text.toList
  have idle : ¬ pattern.Resumes.inTurn .anything [] text.toList [] := by
    rintro ⟨_, _, _, resumed, _⟩
    exact not_resumes_of_unmarked unmarked resumed
  rw [or_iff_right idle] at searched
  refine searched.trans ⟨?_, ?_⟩
  · rintro ⟨before, _, whole, -, part, after, rfl, matched, -⟩
    rw [List.append_nil] at matched
    exact ⟨before, part, after, whole, matched⟩
  · rintro ⟨before, part, after, whole, matched⟩
    refine ⟨before, part ++ after, whole, trivial, part, after, rfl, ?_, trivial⟩
    rwa [List.append_nil]

/-! ## Patterns of characters and of whole texts -/

/-- A pattern and then nothing more. -/
theorem matches_seq_empty :
    (seq pattern empty).Matches before part after ↔ pattern.Matches before part after := by
  constructor
  · rintro ⟨left, right, rfl, here, rfl⟩
    rwa [List.append_nil]
  · intro here
    exact ⟨part, [], List.append_nil part, here, rfl⟩

/-- A character of a set and then another pattern. -/
theorem matches_seq_ofSet {set : CharSet} : (seq (ofSet set) pattern).Matches before part after ↔
    ∃ char rest, part = char :: rest ∧ set.contains char = true ∧
      pattern.Matches (before ++ [char]) rest after := by
  constructor
  · rintro ⟨left, rest, rfl, ⟨char, rfl, contained⟩, matched⟩
    exact ⟨char, rest, rfl, contained, matched⟩
  · rintro ⟨char, rest, rfl, contained, matched⟩
    exact ⟨[char], rest, rfl, ⟨char, rfl, contained⟩, matched⟩

/-- A repetition matches what items write one after the other, if its pattern matches what one of
them writes, wherever that stands. -/
theorem matches_star_iff_flatMap {α : Type} {write : α → List Char} {holds : α → Prop}
    (anywhere : ∀ before part after,
      pattern.Matches before part after ↔ ∃ item, write item = part ∧ holds item) :
    (star pattern).Matches before part after ↔
      ∃ items : List α, items.flatMap write = part ∧ ∀ item ∈ items, holds item := by
  constructor
  · intro taken
    induction taken with
    | stop => exact ⟨[], rfl, nofun⟩
    | again here later ih =>
      obtain ⟨item, rfl, held⟩ := (anywhere _ _ _).mp here
      obtain ⟨items, rfl, all⟩ := ih
      exact ⟨item :: items, rfl, List.forall_mem_cons.mpr ⟨held, all⟩⟩
  · rintro ⟨items, rfl, all⟩
    induction items generalizing before with
    | nil => exact .stop
    | cons item items ih =>
      obtain ⟨held, others⟩ := List.forall_mem_cons.mp all
      exact .again ((anywhere _ _ _).mpr ⟨item, rfl, held⟩) (ih others)

/-- Any number of characters of a set. -/
theorem matches_star_ofSet {set : CharSet} : (star (ofSet set)).Matches before part after ↔
    ∀ char ∈ part, set.contains char = true := by
  have anywhere : ∀ before part after, (ofSet set).Matches before part after ↔
      ∃ char, [char] = part ∧ set.contains char = true := fun _ _ _ => Iff.rfl
  rw [matches_star_iff_flatMap anywhere]
  simp only [List.flatMap_singleton', exists_eq_left]

/-- One character of a set or more. -/
theorem matches_plus_ofSet {set : CharSet} : (plus (ofSet set)).Matches before part after ↔
    part ≠ [] ∧ ∀ char ∈ part, set.contains char = true := by
  rw [plus, matches_seq_ofSet]
  constructor
  · rintro ⟨char, rest, rfl, contained, others⟩
    have all : ∀ item ∈ char :: rest, set.contains item = true :=
      List.forall_mem_cons.mpr ⟨contained, matches_star_ofSet.mp others⟩
    exact ⟨List.cons_ne_nil _ _, all⟩
  · rintro ⟨filled, all⟩
    obtain ⟨char, rest, rfl⟩ := List.exists_cons_of_ne_nil filled
    obtain ⟨contained, others⟩ := List.forall_mem_cons.mp all
    exact ⟨char, rest, rfl, contained, matches_star_ofSet.mpr others⟩

/-- Patterns in sequence, and then the end of the text. -/
theorem matches_sequence_finish (patterns : List Pattern) :
    (sequence (patterns ++ [.finish])).Matches before part after ↔
      after = [] ∧ (sequence patterns).Matches before part [] := by
  induction patterns generalizing before part after with
  | nil =>
    constructor
    · rintro ⟨left, right, rfl, ⟨rfl, ended⟩, rfl⟩
      exact ⟨ended, rfl⟩
    · rintro ⟨rfl, rfl⟩
      exact ⟨[], [], rfl, ⟨rfl, rfl⟩, rfl⟩
  | cons pattern rest ih =>
    constructor
    · rintro ⟨left, right, rfl, here, later⟩
      obtain ⟨rfl, others⟩ := ih.mp later
      exact ⟨rfl, left, right, rfl, here, others⟩
    · rintro ⟨rfl, left, right, rfl, here, later⟩
      exact ⟨left, right, rfl, here, ih.mpr ⟨rfl, later⟩⟩

/-- A sequence has the marks of its patterns. -/
theorem isMarked_sequence (patterns : List Pattern) :
    (sequence patterns).isMarked = patterns.any isMarked := by
  induction patterns with
  | nil => rfl
  | cons pattern rest ih => rw [List.any_cons, ← ih]; rfl

/-- A sequence from the start to the end is found in a text just when it matches all of the text. -/
theorem occursIn_anchored {patterns : List Pattern} (unmarked : patterns.any isMarked = false)
    (text : String) : (sequence (.start :: (patterns ++ [.finish]))).occursIn text = true ↔
      (sequence patterns).Matches [] text.toList [] := by
  have bare : (sequence (.start :: (patterns ++ [.finish]))).isMarked = false := by
    rw [isMarked_sequence, List.any_cons, List.any_append, unmarked]
    rfl
  rw [occursIn_iff bare]
  constructor
  · rintro ⟨before, part, after, whole, left, right, rfl, ⟨rfl, rfl⟩, matched⟩
    obtain ⟨rfl, all⟩ := (matches_sequence_finish patterns).mp matched
    rw [List.nil_append, List.nil_append, List.append_nil] at whole
    rwa [← whole]
  · intro all
    refine ⟨[], text.toList, [], by simp, [], text.toList, rfl, ⟨rfl, rfl⟩, ?_⟩
    exact (matches_sequence_finish patterns).mpr ⟨rfl, all⟩

end Pattern

end Assay
