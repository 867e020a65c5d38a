import Mathlib.Data.List.Forall2
import Assay.Entries

/-!
# Lookups and order of entries

What a key leads to after an insertion, an overlay or a restriction to some keys is stated key by
key, for any list of entries (`lookup_insert`, `lookup_overlay`, `lookup_restrict`). Insertion keeps
the order of keys (`sorted_insert`), so the entries of a list of pairs ascend whatever the order of
the pairs (`sorted_ofList`) and their keys are exactly those of the pairs, each once
(`mem_keys_ofList`, `keys_nodup`); pairs that ascend already are their own entries
(`ofList_of_sorted`).
-/
namespace Assay.Entries

variable {α : Type}

/-- A key leads to the first entry if it is that entry's key, else where the rest leads. -/
theorem lookup_cons (key : String) (value : α) (rest : List (String × α)) (wanted : String) :
    List.lookup wanted ((key, value) :: rest) =
      if wanted = key then some value else rest.lookup wanted := by
  rw [List.lookup_cons]
  by_cases same : wanted = key
  · rw [if_pos same, beq_iff_eq.mpr same]
  · rw [if_neg same, beq_eq_false_iff_ne.mpr same]

/-- Insertion changes what its key leads to and nothing else. -/
theorem lookup_insert (key : String) (value : α) (entries : List (String × α)) (wanted : String) :
    (insert key value entries).lookup wanted =
      if wanted = key then some value else entries.lookup wanted := by
  induction entries with
  | nil => exact lookup_cons key value [] wanted
  | cons entry rest ih =>
    obtain ⟨other, held⟩ := entry
    by_cases before : key < other
    · rw [insert, if_pos before, lookup_cons]
    · by_cases equal : key = other
      · rw [insert, if_neg before, if_pos equal, lookup_cons, lookup_cons, equal]
        by_cases same : wanted = other
        · rw [if_pos same, if_pos same]
        · rw [if_neg same, if_neg same, if_neg same]
      · rw [insert, if_neg before, if_neg equal, lookup_cons, lookup_cons, ih]
        by_cases found : wanted = other
        · rw [if_pos found, if_neg (found.trans_ne (Ne.symm equal)), if_pos found]
        · rw [if_neg found, if_neg found]

/-- Each key of the later entries leads to what it leads to among them, each other key to what it
led to before. -/
theorem lookup_overlay (entries later : List (String × α)) (wanted : String) :
    (overlay entries later).lookup wanted = (later.lookup wanted).or (entries.lookup wanted) := by
  induction later with
  | nil => rfl
  | cons pair rest ih =>
    obtain ⟨key, value⟩ := pair
    change (insert key value (overlay entries rest)).lookup wanted = _
    rw [lookup_insert, ih, lookup_cons]
    by_cases same : wanted = key
    · rw [if_pos same, if_pos same, Option.some_or]
    · rw [if_neg same, if_neg same]

/-- Restricted to some keys, entries lead from these where they led before, and from no other. -/
theorem lookup_restrict (allowed : String → Bool) (entries : List (String × α)) (wanted : String) :
    (entries.filter fun entry => allowed entry.1).lookup wanted =
      if allowed wanted then entries.lookup wanted else none := by
  induction entries with
  | nil => rw [List.filter_nil, List.lookup_nil, ite_self]
  | cons entry rest ih =>
    obtain ⟨key, value⟩ := entry
    rw [List.filter_cons, lookup_cons]
    by_cases kept : allowed key = true
    · rw [if_pos kept, lookup_cons, ih]
      by_cases same : wanted = key
      · rw [if_pos same, if_pos same, same, if_pos kept]
      · rw [if_neg same, if_neg same]
    · rw [if_neg kept, ih]
      by_cases same : wanted = key
      · rw [same, if_neg kept, if_neg kept]
      · rw [if_neg same]

/-- An entry that a key leads to is among the entries. -/
theorem mem_of_lookup {entries : List (String × α)} {key : String} {value : α}
    (found : entries.lookup key = some value) : (key, value) ∈ entries := by
  obtain ⟨before, after, split, -⟩ := List.lookup_eq_some_iff.mp found
  rw [split]
  exact List.mem_append_right _ List.mem_cons_self

/-- The keys after an insertion are the one inserted and those before. -/
theorem mem_keys_insert (key : String) (value : α) (entries : List (String × α)) (wanted : String) :
    wanted ∈ keys (insert key value entries) ↔ wanted = key ∨ wanted ∈ keys entries := by
  induction entries with
  | nil => simp [insert, keys]
  | cons entry rest ih =>
    obtain ⟨other, held⟩ := entry
    rw [insert]
    split_ifs with before equal
    · exact List.mem_cons
    · rw [← equal]
      simp only [keys, List.map_cons, List.mem_cons]
      tauto
    · simp only [keys, List.map_cons, List.mem_cons] at ih ⊢
      rw [ih]
      tauto

/-- An entry put in under a key that is not kept is not kept either. -/
theorem filter_insert (kept : String → Bool) {key : String} (dropped : kept key = false) (value : α)
    (entries : List (String × α)) :
    (insert key value entries).filter (fun entry => kept entry.1) =
      entries.filter fun entry => kept entry.1 := by
  induction entries with
  | nil => simp [insert, dropped]
  | cons entry rest ih =>
    obtain ⟨other, held⟩ := entry
    rw [insert]
    split_ifs with before equal
    · simp [List.filter_cons, dropped]
    · simp [← equal, dropped]
    · simp only [List.filter_cons, ih]

/-- Insertion keeps the order of keys. -/
theorem sorted_insert (key : String) (value : α) {entries : List (String × α)}
    (sorted : Sorted entries) : Sorted (insert key value entries) := by
  induction entries with
  | nil => exact List.pairwise_singleton _ _
  | cons entry rest ih =>
    obtain ⟨other, held⟩ := entry
    obtain ⟨first, later⟩ := List.pairwise_cons.mp sorted
    by_cases before : key < other
    · rw [insert, if_pos before]
      refine List.pairwise_cons.mpr ⟨fun entry member => ?_, sorted⟩
      rcases List.mem_cons.mp member with same | member
      · rw [same]
        exact before
      · exact String.lt_trans before (first entry member)
    · by_cases equal : key = other
      · rw [insert, if_neg before, if_pos equal]
        subst equal
        exact List.pairwise_cons.mpr ⟨first, later⟩
      · rw [insert, if_neg before, if_neg equal]
        have after : other < key := Std.lt_of_le_of_ne (String.not_lt.mp before) (Ne.symm equal)
        refine List.pairwise_cons.mpr ⟨fun entry member => ?_, ih later⟩
        have listed : entry.1 ∈ keys (insert key value rest) := List.mem_map_of_mem member
        rcases (mem_keys_insert key value rest entry.1).mp listed with same | inside
        · rw [same]
          exact after
        · obtain ⟨found, among, same⟩ := List.mem_map.mp inside
          rw [← same]
          exact first found among

/-- The entries of any pairs ascend, after entries that ascend. -/
theorem sorted_foldl (pairs : List (String × α)) {entries : List (String × α)}
    (sorted : Sorted entries) :
    Sorted (pairs.foldl (fun built pair => insert pair.1 pair.2 built) entries) := by
  induction pairs generalizing entries with
  | nil => exact sorted
  | cons pair rest ih => exact ih (sorted_insert pair.1 pair.2 sorted)

/-- The entries of a list of pairs ascend. -/
theorem sorted_ofList (pairs : List (String × α)) : Sorted (ofList pairs) :=
  sorted_foldl pairs List.Pairwise.nil

/-- Entries that ascend ascend with others in their place or between them. -/
theorem sorted_overlay {entries : List (String × α)} (later : List (String × α))
    (sorted : Sorted entries) : Sorted (overlay entries later) := by
  induction later with
  | nil => exact sorted
  | cons pair rest ih => exact sorted_insert pair.1 pair.2 ih

/-- Before the first of the keys that ascend, no key leads anywhere. -/
theorem lookup_of_lt {entries : List (String × α)} {key : String}
    (before : ∀ entry ∈ entries, key < entry.1) : entries.lookup key = none := by
  cases found : entries.lookup key with
  | none => rfl
  | some value => exact absurd (before _ (mem_of_lookup found)) (String.lt_irrefl key)

/-- Entries that ascend are the same when every key leads to the same. -/
theorem eq_of_lookup {first second : List (String × α)} (sorted : Sorted first)
    (also : Sorted second) (same : ∀ key, first.lookup key = second.lookup key) :
    first = second := by
  induction first generalizing second with
  | nil =>
    cases second with
    | nil => rfl
    | cons entry rest =>
      have found := same entry.1
      rw [lookup_cons, if_pos rfl] at found
      cases found
  | cons entry rest ih =>
    obtain ⟨key, value⟩ := entry
    obtain ⟨before, later⟩ := List.pairwise_cons.mp sorted
    cases second with
    | nil =>
      have found := same key
      rw [lookup_cons, if_pos rfl] at found
      cases found
    | cons twin others =>
      obtain ⟨label, held⟩ := twin
      obtain ⟨early, following⟩ := List.pairwise_cons.mp also
      -- The smaller of the two first keys would lead nowhere among the other entries.
      have equal : key = label := by
        by_contra different
        by_cases less : key < label
        · have found := same key
          rw [lookup_cons, if_pos rfl, lookup_cons, if_neg different,
            lookup_of_lt fun entry member => String.lt_trans less (early entry member)] at found
          cases found
        · have more : label < key := Std.lt_of_le_of_ne (String.not_lt.mp less) (Ne.symm different)
          have found := same label
          rw [lookup_cons, lookup_cons, if_pos rfl, if_neg (Ne.symm different),
            lookup_of_lt fun entry member => String.lt_trans more (before entry member)] at found
          cases found
      subst equal
      have shared := same key
      rw [lookup_cons, lookup_cons, if_pos rfl, if_pos rfl] at shared
      rw [Option.some.inj shared, ih later following fun wanted => ?_]
      by_cases hit : wanted = key
      · rw [hit, lookup_of_lt before, lookup_of_lt early]
      · have found := same wanted
        rwa [lookup_cons, lookup_cons, if_neg hit, if_neg hit] at found

/-- Insertions under different keys may be made in either order. -/
theorem insert_comm {key other : String} (different : key ≠ other) (value held : α)
    {entries : List (String × α)} (sorted : Sorted entries) :
    insert key value (insert other held entries) = insert other held (insert key value entries) := by
  apply eq_of_lookup
  · exact sorted_insert key value (sorted_insert other held sorted)
  · exact sorted_insert other held (sorted_insert key value sorted)
  · intro wanted
    simp only [lookup_insert]
    by_cases first : wanted = key
    · have second : wanted ≠ other := first.trans_ne different
      simp [first, different]
    · simp [first]

/-- The keys of the entries of some pairs, after other entries, are those of both. -/
theorem mem_keys_foldl (pairs entries : List (String × α)) (wanted : String) :
    wanted ∈ keys (pairs.foldl (fun built pair => insert pair.1 pair.2 built) entries) ↔
      wanted ∈ pairs.map Prod.fst ∨ wanted ∈ keys entries := by
  induction pairs generalizing entries with
  | nil => simp
  | cons pair rest ih =>
    rw [List.foldl_cons, ih, mem_keys_insert, List.map_cons, List.mem_cons]
    tauto

/-- The keys of the entries of a list of pairs are those of the pairs. -/
theorem mem_keys_ofList (pairs : List (String × α)) (wanted : String) :
    wanted ∈ keys (ofList pairs) ↔ wanted ∈ pairs.map Prod.fst := by
  rw [ofList, mem_keys_foldl]
  simp [keys]

/-- No key of entries that ascend occurs twice. -/
theorem keys_nodup {entries : List (String × α)} (sorted : Sorted entries) :
    (keys entries).Nodup :=
  List.pairwise_map.mpr (sorted.imp fun before => String.ne_of_lt before)

/-- Insertion of a key after all others appends it. -/
theorem insert_of_lt {key : String} {entries : List (String × α)} (value : α)
    (after : ∀ entry ∈ entries, entry.1 < key) :
    insert key value entries = entries ++ [(key, value)] := by
  induction entries with
  | nil => rfl
  | cons entry rest ih =>
    obtain ⟨other, held⟩ := entry
    have first : other < key := after (other, held) List.mem_cons_self
    rw [insert, if_neg (String.lt_asymm first), if_neg (String.ne_of_lt first).symm,
      ih fun later member => after later (List.mem_cons_of_mem _ member), List.cons_append]

/-- The entries of pairs that ascend, after entries before them, are these pairs. -/
theorem foldl_insert_of_sorted {entries pairs : List (String × α)}
    (sorted : Sorted (entries ++ pairs)) :
    pairs.foldl (fun built pair => insert pair.1 pair.2 built) entries = entries ++ pairs := by
  induction pairs generalizing entries with
  | nil => rw [List.foldl_nil, List.append_nil]
  | cons pair rest ih =>
    have before : ∀ entry ∈ entries, entry.1 < pair.1 := fun entry member =>
      (List.pairwise_append.mp sorted).2.2 entry member pair List.mem_cons_self
    rw [List.append_cons] at sorted ⊢
    rw [List.foldl_cons, insert_of_lt pair.2 before, ih sorted]

/-- Whether entries ascend depends on their keys alone. -/
theorem sorted_of_keys {β : Type} {entries : List (String × α)} {others : List (String × β)}
    (same : keys entries = keys others) (sorted : Sorted entries) : Sorted others := by
  have ascend : (keys others).Pairwise (· < ·) := same ▸ List.pairwise_map.mpr sorted
  exact List.pairwise_map.mp ascend

/-- The entries of pairs that ascend are these pairs. -/
theorem ofList_of_sorted {pairs : List (String × α)} (sorted : Sorted pairs) :
    ofList pairs = pairs := foldl_insert_of_sorted sorted

/-- What is in the second of two lists related place by place is related to an item of the first. -/
theorem exists_left_of_forall₂ {β γ : Type} {related : β → γ → Prop} {lefts : List β}
    {rights : List γ} (each : List.Forall₂ related lefts rights) {right : γ}
    (member : right ∈ rights) : ∃ left ∈ lefts, related left right := by
  induction each with
  | nil => cases member
  | cons head _ ih =>
    rcases List.mem_cons.mp member with here | there
    · exact ⟨_, List.mem_cons_self, here ▸ head⟩
    · exact List.exists_mem_cons_of_exists (ih there)

/-- Lists that are related place by place under the same names have the same names. -/
theorem names_of_forall₂ {β γ : Type} {related : String × β → String × γ → Prop}
    {firsts : List (String × β)} {seconds : List (String × γ)}
    (each : List.Forall₂ (fun first second => second.1 = first.1 ∧ related first second) firsts
      seconds) : firsts.map Prod.fst = seconds.map Prod.fst := by
  induction each with
  | nil => rfl
  | cons head _ ih => rw [List.map_cons, List.map_cons, head.1, ih]

/-- Lists of entries that agree key by key lead from each key to values that agree. -/
theorem lookup_of_forall₂ {β : Type} {related : String × α → String × β → Prop}
    {entries : List (String × α)} {results : List (String × β)}
    (each : List.Forall₂ (fun entry result => result.1 = entry.1 ∧ related entry result) entries
      results) {key : String} {value : α} (found : entries.lookup key = some value) :
    ∃ result, results.lookup key = some result ∧ related (key, value) (key, result) := by
  induction each with
  | nil => cases found
  | @cons entry result _ _ head _ ih =>
    obtain ⟨same, holds⟩ := head
    obtain ⟨other, held⟩ := entry
    obtain ⟨label, outcome⟩ := result
    obtain rfl : other = label := same.symm
    rw [lookup_cons] at found ⊢
    by_cases hit : key = other
    · rw [if_pos hit] at found ⊢
      obtain rfl := Option.some.inj found
      exact ⟨outcome, rfl, hit ▸ holds⟩
    · rw [if_neg hit] at found ⊢
      exact ih found

/-! ## Outcomes under keys -/

/-- Put the outcomes that are values under their keys, one after the other. -/
def collect (outcomes : List (String × Option α)) (entries : List (String × α)) :
    List (String × α) :=
  outcomes.foldl (fun built outcome =>
    match outcome.2 with
    | some value => insert outcome.1 value built
    | none => built) entries

/-- The last outcome under a key that is a value. -/
def latest (key : String) (outcomes : List (String × Option α)) : Option α :=
  (outcomes.filterMap fun outcome => if outcome.1 = key then outcome.2 else none).getLast?

/-- The last value among the outcomes after a first one is the last of the rest, or the first. -/
theorem latest_cons (key : String) (outcome : String × Option α)
    (rest : List (String × Option α)) :
    latest key (outcome :: rest) =
      (latest key rest).or (if outcome.1 = key then outcome.2 else none) := by
  rw [latest, List.filterMap_cons]
  cases head : (if outcome.1 = key then outcome.2 else none) with
  | none => rw [Option.or_none, latest]
  | some value =>
    rw [List.getLast?_cons, latest]
    cases List.getLast? _ <;> rfl

/-- Collected, the last value under a key takes the place of what the key led to. -/
theorem lookup_collect (outcomes : List (String × Option α)) (entries : List (String × α))
    (wanted : String) :
    (collect outcomes entries).lookup wanted =
      (latest wanted outcomes).or (entries.lookup wanted) := by
  induction outcomes generalizing entries with
  | nil => rfl
  | cons outcome rest ih =>
    obtain ⟨key, result⟩ := outcome
    rw [collect, List.foldl_cons, ← collect, ih, latest_cons, Option.or_assoc]
    cases result with
    | none => rw [ite_self, Option.none_or]
    | some value =>
      rw [lookup_insert]
      by_cases same : wanted = key
      · rw [if_pos same, if_pos same.symm, Option.some_or]
      · rw [if_neg same, if_neg (Ne.symm same), Option.none_or]

/-- Collected after entries that ascend, outcomes ascend. -/
theorem sorted_collect (outcomes : List (String × Option α)) {entries : List (String × α)}
    (sorted : Sorted entries) : Sorted (collect outcomes entries) := by
  induction outcomes generalizing entries with
  | nil => exact sorted
  | cons outcome rest ih =>
    obtain ⟨key, result⟩ := outcome
    cases result with
    | none => exact ih sorted
    | some value => exact ih (sorted_insert key value sorted)

/-- Without an outcome under a key there is no last one. -/
theorem latest_eq_none {key : String} {outcomes : List (String × Option α)}
    (absent : key ∉ outcomes.map Prod.fst) : latest key outcomes = none := by
  rw [latest, List.filterMap_eq_nil_iff.mpr, List.getLast?_nil]
  intro outcome member
  rw [if_neg]
  intro same
  exact absent (List.mem_map.mpr ⟨outcome, member, same⟩)

/-- Where every outcome under a key is a value with a property, and there is one, so is the last. -/
theorem latest_of_all {key : String} {outcomes : List (String × Option α)} {property : α → Prop}
    (each : ∀ outcome ∈ outcomes, outcome.1 = key →
      ∃ value, outcome.2 = some value ∧ property value)
    (declared : key ∈ outcomes.map Prod.fst) :
    ∃ value, latest key outcomes = some value ∧ property value := by
  induction outcomes with
  | nil => cases declared
  | cons outcome rest ih =>
    rw [latest_cons]
    by_cases later : key ∈ rest.map Prod.fst
    · obtain ⟨value, last, holds⟩ :=
        ih (fun other member => each other (List.mem_cons_of_mem _ member)) later
      exact ⟨value, by rw [last, Option.some_or], holds⟩
    · have same : outcome.1 = key := by
        rcases List.mem_cons.mp declared with here | there
        · exact here.symm
        · exact absurd there later
      obtain ⟨value, found, holds⟩ := each outcome List.mem_cons_self same
      exact ⟨value, by rw [latest_eq_none later, if_pos same, found, Option.none_or], holds⟩

/-- Where no key occurs twice, the outcome under a key is the last one. -/
theorem latest_of_mem {key : String} {result : Option α} {outcomes : List (String × Option α)}
    (distinct : (outcomes.map Prod.fst).Nodup) (member : (key, result) ∈ outcomes) :
    latest key outcomes = result := by
  induction outcomes with
  | nil => cases member
  | cons outcome rest ih =>
    obtain ⟨fresh, later⟩ := List.nodup_cons.mp distinct
    rw [latest_cons]
    rcases List.mem_cons.mp member with here | there
    · rw [← here] at fresh ⊢
      rw [latest_eq_none fresh, if_pos rfl, Option.none_or]
    · have other : outcome.1 ≠ key := by
        intro same
        exact fresh (same ▸ List.mem_map_of_mem there)
      rw [ih later there, if_neg other, Option.or_none]

end Assay.Entries
