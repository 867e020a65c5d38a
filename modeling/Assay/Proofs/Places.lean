import Mathlib.Data.List.Basic
import Assay.Fault.Basic

/-!
# Places in text

The text of a path is read back step by step: a point opens a key, a bracket opens an index, and a key
that has neither of them in it ends where the next step opens (`Path.laterText_append_inj`). The first
key has no point before it, but unlike an index it does not begin with a bracket, and unlike the root
it is not empty. So paths whose keys are plain have different texts (`Path.eq_of_toText`).

A message gives the text between quotation marks and then the reason. Where reasons are the same, or
where the keys have no quotation mark in them, messages tell places apart (`Path.toText_locates`); where
both have, the mark that ends a path may be taken for one that a key or a reason has in it
(`Path.toText_locates_quoted`).
-/
namespace Assay

/-- A character that opens a step. -/
def Segment.isOpening (char : Char) : Bool := char == '.' || char == '['

/-- The step is an index, or a key that is not empty and has no opening character in it. -/
def Segment.Plain : Segment → Prop
  | .key name => name ≠ "" ∧ ∀ char ∈ name.toList, isOpening char = false
  | .index _ => True

instance : DecidablePred Segment.Plain
  | .key name =>
    -- The characters of the key are looked at, and not all characters.
    have : Decidable (∀ char ∈ name.toList, Segment.isOpening char = false) :=
      List.decidableBAll _ _
    inferInstanceAs (Decidable (name ≠ "" ∧ ∀ char ∈ name.toList, Segment.isOpening char = false))
  | .index _ => inferInstanceAs (Decidable True)

/-- What stands before and after the text of a path in a message. -/
def Segment.isMark (char : Char) : Bool := char == '"'

/-- The step is an index, or a key without a quotation mark. -/
def Segment.Unquoted : Segment → Prop
  | .key name => ∀ char ∈ name.toList, isMark char = false
  | .index _ => True

namespace Path

/-- All steps are plain. -/
def Plain (path : Path) : Prop := ∀ segment ∈ path.segments, segment.Plain

instance (path : Path) : Decidable path.Plain :=
  inferInstanceAs (Decidable (∀ segment ∈ path.segments, segment.Plain))

/-- No key has a quotation mark in it. -/
def Unquoted (path : Path) : Prop := ∀ segment ∈ path.segments, segment.Unquoted

/-- Two parts that each end where a character of a sort comes first are split off alike. -/
theorem append_inj_of_stop {stops : Char → Bool} {first second later rest : List Char}
    (within : ∀ char ∈ first, stops char = false) (also : ∀ char ∈ second, stops char = false)
    (ends : ∀ char ∈ later.head?, stops char = true)
    (finishes : ∀ char ∈ rest.head?, stops char = true)
    (same : first ++ later = second ++ rest) : first = second ∧ later = rest := by
  induction first generalizing second with
  | nil =>
    cases second with
    | nil => exact ⟨rfl, same⟩
    | cons char others =>
      -- What is left begins with a character that both stops and does not.
      rw [List.nil_append] at same
      have stopped := ends char (by rw [same]; rfl)
      rw [also char List.mem_cons_self] at stopped
      cases stopped
  | cons char others ih =>
    obtain ⟨plain, others_plain⟩ := List.forall_mem_cons.mp within
    cases second with
    | nil =>
      rw [List.nil_append] at same
      have stopped := finishes char (by rw [← same]; rfl)
      rw [plain] at stopped
      cases stopped
    | cons other more =>
      obtain ⟨rfl, tails⟩ := List.cons.inj same
      obtain ⟨rfl, ends⟩ := ih others_plain (List.forall_mem_cons.mp also).2 tails
      exact ⟨rfl, ends⟩

/-- The characters of steps that are not the first. -/
def laterChars (segments : List Segment) : List Char :=
  segments.flatMap fun segment => (laterText segment).toList

/-- Steps that are not the first begin with an opening character. -/
theorem laterChars_opens (segments : List Segment) :
    ∀ char ∈ (laterChars segments).head?, Segment.isOpening char = true := by
  cases segments with
  | nil => exact nofun
  | cons segment rest =>
    intro char found
    cases segment <;>
    · simp [laterChars, laterText] at found
      subst found
      rfl

/-- A number is written without what is no digit. -/
theorem beq_of_mem_repr {number : Nat} {mark : Char} (other : mark.isDigit = false) :
    ∀ char ∈ number.repr.toList, (char == mark) = false := by
  intro char digit
  rw [Nat.toList_repr] at digit
  have decimal := Nat.isDigit_of_mem_toDigits (by decide) (by decide) digit
  rw [beq_eq_false_iff_ne]
  rintro rfl
  rw [other] at decimal
  cases decimal

/-- A plain step that is not the first is told by the text that begins with it, and so is what follows
it. -/
theorem laterText_append_inj {first second : Segment} {later rest : List Char} (plain : first.Plain)
    (also : second.Plain) (opens : ∀ char ∈ later.head?, Segment.isOpening char = true)
    (starts : ∀ char ∈ rest.head?, Segment.isOpening char = true)
    (same : (laterText first).toList ++ later = (laterText second).toList ++ rest) :
    first = second ∧ later = rest := by
  cases first with
  | key key =>
    cases second with
    | key other =>
      simp only [laterText, String.toList_append, List.append_assoc] at same
      obtain ⟨keys, tails⟩ := append_inj_of_stop plain.2 also.2 opens starts
        (List.append_cancel_left same)
      exact ⟨congrArg Segment.key (String.toList_inj.mp keys), tails⟩
    | index index => simp [laterText] at same
  | index index =>
    cases second with
    | key other => simp [laterText] at same
    | index other =>
      simp only [laterText, String.toList_append, List.append_assoc,
        Nat.toString_eq_repr] at same
      have closes : ∀ tail : List Char, ∀ char ∈ ("]".toList ++ tail).head?,
          (char == ']') = true := by
        simp
      obtain ⟨digits, tails⟩ := append_inj_of_stop (beq_of_mem_repr rfl) (beq_of_mem_repr rfl)
        (closes later) (closes rest) (List.append_cancel_left same)
      rw [Nat.toList_repr, Nat.toList_repr] at digits
      have numbers := congrArg (fun chars => Nat.ofDigitChars 10 chars 0) digits
      simp only [Nat.ofDigitChars_toDigits (by decide : 1 < 10) (by decide : 10 ≤ 10)] at numbers
      exact ⟨congrArg Segment.index numbers, List.append_cancel_left tails⟩

/-- Plain steps that are not the first are told by their text. -/
theorem laterChars_injective {first second : List Segment} (plain : ∀ segment ∈ first, segment.Plain)
    (also : ∀ segment ∈ second, segment.Plain) (same : laterChars first = laterChars second) :
    first = second := by
  induction first generalizing second with
  | nil =>
    cases second with
    | nil => rfl
    | cons segment rest => cases segment <;> simp [laterChars, laterText] at same
  | cons segment rest ih =>
    cases second with
    | nil => cases segment <;> simp [laterChars, laterText] at same
    | cons other others =>
      obtain ⟨here, later⟩ := List.forall_mem_cons.mp plain
      obtain ⟨there, more⟩ := List.forall_mem_cons.mp also
      simp only [laterChars, List.flatMap_cons] at same
      obtain ⟨rfl, tails⟩ := laterText_append_inj here there (laterChars_opens rest)
        (laterChars_opens others) same
      rw [ih later more tails]

/-- The text of a path that begins with a key is that of its steps without the point before the
key. -/
theorem toText_key (key : String) (rest : List Segment) :
    '.' :: (toText ⟨.key key :: rest⟩).toList = laterChars (.key key :: rest) := by
  simp [toText, firstText, laterText, laterChars, List.flatMap_map]

/-- The text of a path that begins with an index is that of its steps. -/
theorem toText_index (index : Nat) (rest : List Segment) :
    (toText ⟨.index index :: rest⟩).toList = laterChars (.index index :: rest) := by
  simp [toText, firstText, laterText, laterChars, List.flatMap_map]

/-- A text of steps with the point that a first key lacks. -/
def opened : List Char → List Char
  | [] => []
  | char :: rest => if char = '[' then char :: rest else '.' :: char :: rest

/-- The text of a plain path shows whether a point is missing before it. -/
theorem laterChars_eq_opened {path : Path} (plain : path.Plain) :
    laterChars path.segments = opened path.toText.toList := by
  obtain ⟨segments⟩ := path
  cases segments with
  | nil => rfl
  | cons segment rest =>
    cases segment with
    | key key =>
      obtain ⟨filled, within⟩ : (Segment.key key).Plain := plain _ List.mem_cons_self
      rw [← toText_key]
      -- The text begins as the key does, which is not empty and holds no bracket.
      have text : (toText ⟨.key key :: rest⟩).toList = key.toList ++ laterChars rest := by
        simpa [laterChars, laterText] using toText_key key rest
      rw [text]
      cases chars : key.toList with
      | nil => exact absurd (String.toList_inj.mp chars) filled
      | cons char others =>
        have closed := within char (chars ▸ List.mem_cons_self)
        have other : char ≠ '[' := by
          rintro rfl
          cases closed
        rw [List.cons_append, opened, if_neg other]
    | index index =>
      have text : laterChars (.index index :: rest) =
          '[' :: (index.repr.toList ++ ']' :: laterChars rest) := by
        simp [laterChars, laterText]
      rw [toText_index, text, opened, if_pos rfl]

/-- Plain paths of one text are one path. -/
theorem eq_of_toText {first second : Path} (plain : first.Plain) (also : second.Plain)
    (same : first.toText = second.toText) : first = second := by
  have steps : laterChars first.segments = laterChars second.segments := by
    rw [laterChars_eq_opened plain, laterChars_eq_opened also, same]
  obtain ⟨segments⟩ := first
  obtain ⟨others⟩ := second
  exact congrArg Path.mk (laterChars_injective plain also steps)

/-- The root is plain. -/
theorem plain_root : root.Plain := List.forall_mem_nil _

/-- A step without a quotation mark is written without one. -/
theorem isMark_laterText {segment : Segment} (unquoted : segment.Unquoted) :
    ∀ char ∈ (laterText segment).toList, Segment.isMark char = false := by
  intro char written
  cases segment with
  | key name =>
    rw [laterText, String.toList_append, List.mem_append] at written
    rcases written with point | inside
    · obtain rfl := List.mem_singleton.mp point
      rfl
    · exact unquoted char inside
  | index index =>
    simp only [laterText, String.toList_append, List.mem_append, Nat.toString_eq_repr] at written
    rcases written with (opening | digit) | closing
    · obtain rfl := List.mem_singleton.mp opening
      rfl
    · exact beq_of_mem_repr rfl char digit
    · obtain rfl := List.mem_singleton.mp closing
      rfl

/-- A path without a quotation mark is written without one. -/
theorem isMark_toText {path : Path} (unquoted : path.Unquoted) :
    ∀ char ∈ path.toText.toList, Segment.isMark char = false := by
  have steps : ∀ char ∈ laterChars path.segments, Segment.isMark char = false := by
    intro char written
    obtain ⟨segment, listed, inside⟩ := List.mem_flatMap.mp written
    exact isMark_laterText (unquoted segment listed) char inside
  obtain ⟨segments⟩ := path
  intro char written
  cases segments with
  | nil => cases written
  | cons segment rest =>
    apply steps
    cases segment with
    | key key =>
      rw [← toText_key]
      exact List.mem_cons_of_mem _ written
    | index index => rwa [← toText_index]

/-- The root has no steps. -/
theorem isRoot_iff {path : Path} : path.isRoot = true ↔ path = root := by
  obtain ⟨segments⟩ := path
  rw [isRoot, List.isEmpty_iff, root, mk.injEq]

end Path

/-- Of faults at plain paths, those that give one reason in one message are at one place. -/
theorem Fault.path_of_message {first second : Fault} (plain : first.path.Plain)
    (also : second.path.Plain) (reason : first.reason.message = second.reason.message)
    (same : first.message = second.message) : first.path = second.path := by
  unfold message at same
  rw [reason] at same
  split at same
  · rename_i start
    split at same
    · rename_i begins
      exact (Path.isRoot_iff.mp start).trans (Path.isRoot_iff.mp begins).symm
    · -- The one message is the reason itself, of which the other has more before it.
      have lengths := congrArg String.length same
      simp [String.length_append] at lengths
  · split at same
    · have lengths := congrArg String.length same
      simp [String.length_append] at lengths
    · have texts := congrArg String.toList same
      simp only [String.toList_append, List.append_assoc, List.append_cancel_left_eq] at texts
      rw [← List.append_assoc, ← List.append_assoc, List.append_cancel_right_eq,
        List.append_cancel_right_eq] at texts
      exact Path.eq_of_toText plain also (String.toList_inj.mp texts)

/-- Of faults at plain paths without quotation marks, those of one message are at one place, unless
one of them is at the root. -/
theorem Fault.path_of_unquoted {first second : Fault} (plain : first.path.Plain)
    (also : second.path.Plain) (unquoted : first.path.Unquoted) (unmarked : second.path.Unquoted)
    (level : first.path = .root ↔ second.path = .root) (same : first.message = second.message) :
    first.path = second.path := by
  by_cases start : first.path = .root
  · exact start.trans (level.mp start).symm
  · have inside : ¬ first.path.isRoot = true := fun found => start (Path.isRoot_iff.mp found)
    have within : ¬ second.path.isRoot = true := fun found =>
      start (level.mpr (Path.isRoot_iff.mp found))
    rw [message, message, if_neg inside, if_neg within] at same
    have texts := congrArg String.toList same
    simp only [String.toList_append, List.append_assoc, List.append_cancel_left_eq] at texts
    -- The text of a path ends at the next quotation mark.
    have closes : ∀ words : List Char,
        ∀ char ∈ ("\". ".toList ++ words).head?, Segment.isMark char = true := by
      simp [Segment.isMark]
    obtain ⟨paths, _⟩ := Path.append_inj_of_stop (Path.isMark_toText unquoted)
      (Path.isMark_toText unmarked) (closes _) (closes _) texts
    exact Path.eq_of_toText plain also (String.toList_inj.mp paths)

namespace Path

/-- The text of a plain path tells it from all others and is empty for the root only. A message tells
the place that it is about from all others where the reason is the same, and from all others but the
root where no key has a quotation mark in it. -/
theorem toText_locates :
    (∀ first second : Path, first.Plain → second.Plain → first.toText = second.toText →
      first = second) ∧
    (∀ path : Path, path.Plain → (path.toText = "" ↔ path = root)) ∧
    (∀ first second : Fault, first.path.Plain → second.path.Plain →
      first.reason.message = second.reason.message → first.message = second.message →
        first.path = second.path) ∧
    ∀ first second : Fault, first.path.Plain → second.path.Plain → first.path.Unquoted →
      second.path.Unquoted → (first.path = root ↔ second.path = root) →
        first.message = second.message → first.path = second.path := by
  refine ⟨fun first second plain also same => eq_of_toText plain also same,
    fun path plain => ⟨fun empty => eq_of_toText plain plain_root empty, ?_⟩,
    fun first second plain also reason same => Fault.path_of_message plain also reason same,
    fun first second plain also unquoted unmarked level same =>
      Fault.path_of_unquoted plain also unquoted unmarked level same⟩
  rintro rfl
  rfl

/-- The host of a first server is found by its text. -/
theorem toText_locates_host :
    let host : Path := ⟨[.key "servers", .index 0, .key "host"]⟩
    let found := ((root.key "servers").index 0).key "host"
    host.Plain ∧ found.Plain ∧ host.Unquoted ∧ host.toText = "servers[0].host" ∧ host = found ∧
      (found.toText = "" ↔ found = root) ∧
      (Fault.located host .missing).path = (Fault.located found .missing).path := by
  intro host found
  have plain : host.Plain := by decide +kernel
  have also : found.Plain := by decide +kernel
  have unquoted : host.Unquoted := by
    simp [host, Unquoted, Segment.Unquoted, Segment.isMark]
  obtain ⟨places, empty, _, messages⟩ := toText_locates
  exact ⟨plain, also, unquoted, by decide +kernel, places host found plain also rfl,
    empty found also, messages (.located host .missing) (.located found .missing) plain also unquoted
      unquoted Iff.rfl rfl⟩

-- A key with a point in it is taken for two keys.
example : toText ⟨[.key "a.b"]⟩ = toText ⟨[.key "a", .key "b"]⟩ := by decide +kernel

/-- Not every message of a fault at a plain path tells its place: with a quotation mark in a key and in
a token that a text lacks, faults at two places have one message; and the words of a host may be those
that tell of another place. -/
theorem toText_locates_quoted :
    let lacking := Fault.located ⟨[.key "a"]⟩
      (.text (.contains "z\". String does not include \"t"))
    let nested := Fault.located ⟨[.key "a\"", .key " String does not include \"z"]⟩
      (.text (.contains "t"))
    let stated := Fault.located root (.stated "Invalid field \"a\". Null is not allowed.")
    let undefined := Fault.located ⟨[.key "a"]⟩ .nullValue
    (lacking.path.Plain ∧ nested.path.Plain ∧ lacking.message = nested.message ∧
      lacking.path ≠ nested.path) ∧
    stated.path.Plain ∧ undefined.path.Plain ∧ stated.message = undefined.message ∧
      stated.path ≠ undefined.path := by
  decide +kernel

end Path

end Assay
