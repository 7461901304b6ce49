import Mathlib.Data.List.Nodup
import Dfs.StorageServer.GrantedAccess

/-!
# What a revocation removes

The entry to remove is found by searching the list for `user:RW`, or else for
`user:R`, so what is found may be the end of a longer name.  Of such an entry
the front part stays and merges with the entry behind it.
-/

namespace Dfs.StorageServer

structure AccessEntry where
  name : Text
  writes : Bool
  deriving DecidableEq, Repr

namespace AccessEntry

def letters (entry : AccessEntry) : Text :=
  if entry.writes then ['R', 'W'] else ['R']

def text (entry : AccessEntry) : Text :=
  entry.name ++ ':' :: entry.letters

def access (entry : AccessEntry) : Nat :=
  if entry.writes then 3 else 1

theorem access_injective {entry other : AccessEntry}
    (same : entry.access = other.access) : entry.writes = other.writes := by
  unfold access at same
  cases first : entry.writes
  · cases second : other.writes
    · rfl
    · simp [first, second] at same
  · cases second : other.writes
    · simp [first, second] at same
    · rfl

theorem not_mem_letters {byte : Char} (notR : byte ≠ 'R')
    (notW : byte ≠ 'W') (entry : AccessEntry) : byte ∉ entry.letters := by
  unfold letters
  split
  · simp [notR, notW]
  · simp [notR]

theorem letters_begin (entry : AccessEntry) : ['R'] <+: entry.letters := by
  unfold letters
  split
  · exact ⟨['W'], rfl⟩
  · exact ⟨[], rfl⟩

theorem comma_not_mem_text {entry : AccessEntry}
    (plain : PlainName entry.name) : ',' ∉ entry.text := by
  intro member
  rcases List.mem_append.mp member with inName | inLetters
  · exact plain.2 inName
  · rcases List.mem_cons.mp inLetters with colon | inLetters
    · exact absurd colon (by decide)
    · exact not_mem_letters (by decide) (by decide) entry inLetters

theorem parseAccessEntry_text {entry : AccessEntry}
    (plain : PlainName entry.name) :
    parseAccessEntry entry.text = some (entry.name, entry.access) := by
  rw [text, parseAccessEntry_append plain.1]
  unfold letters access
  split
  · simp
  · simp

end AccessEntry

/-- The text of a list. -/
def listText (entries : List AccessEntry) : Text :=
  [','].intercalate (entries.map AccessEntry.text)

structure WellFormedList (entries : List AccessEntry) : Prop where
  distinct : (entries.map AccessEntry.name).Nodup
  inhabited : ∀ entry ∈ entries, entry.name ≠ []
  plain : ∀ entry ∈ entries, PlainName entry.name

/-- The entries of the list with a comma behind each. -/
def listFront (entries : List AccessEntry) : Text :=
  entries.flatMap fun entry => entry.text ++ [',']

/-- The entries of the list with a comma before each. -/
def listBack (entries : List AccessEntry) : Text :=
  entries.flatMap fun entry => ',' :: entry.text

section Text

variable {entry : AccessEntry} {front back entries : List AccessEntry}

theorem listText_cons (entry : AccessEntry) (back : List AccessEntry) :
    listText (entry :: back) = entry.text ++ listBack back := by
  induction back generalizing entry with
  | nil => simp [listText, listBack]
  | cons next back ih =>
      have rest := ih next
      unfold listText at rest ⊢
      rw [List.map_cons, List.map_cons, CText.intercalate_cons_cons,
        ← List.map_cons, rest]
      simp [listBack]

theorem drop_listBack (back : List AccessEntry) :
    (listBack back).drop 1 = listText back := by
  cases back with
  | nil => rfl
  | cons next back =>
      rw [listText_cons]
      simp [listBack]

theorem listText_append_cons (front : List AccessEntry)
    (entry : AccessEntry) (back : List AccessEntry) :
    listText (front ++ entry :: back) =
      listFront front ++ (entry.text ++ listBack back) := by
  induction front with
  | nil => simp [listFront, listText_cons]
  | cons first front ih =>
      obtain ⟨next, rest, split⟩ := List.exists_cons_of_ne_nil
        (show front ++ entry :: back ≠ [] by simp)
      have behind : listBack (front ++ entry :: back) =
          ',' :: listText (front ++ entry :: back) := by
        rw [split, listText_cons]
        simp [listBack]
      rw [List.cons_append, listText_cons, behind, ih]
      simp [listFront]

/-- A list that goes on behind a front part. -/
theorem listFront_dropLast (inhabited : front ≠ [])
    (back : List AccessEntry) :
    (listFront front).dropLast ++ listBack back =
      listText (front ++ back) := by
  obtain ⟨before, last, rfl⟩ := List.eq_nil_or_concat front |>.resolve_left
    inhabited
  have whole := listText_append_cons before last back
  rw [List.concat_eq_append, List.append_assoc, List.singleton_append, whole]
  simp [listFront, ← List.append_assoc]

theorem strtok_listText (plain : ∀ entry ∈ entries, PlainName entry.name) :
    CText.strtok ',' (listText entries) =
      entries.map AccessEntry.text := by
  apply CText.strtok_intercalate
  intro token member
  obtain ⟨entry, inside, rfl⟩ := List.mem_map.mp member
  exact ⟨by simp [AccessEntry.text],
    AccessEntry.comma_not_mem_text (plain entry inside)⟩

/-- What the list gives to a name. -/
theorem listedAccess_listText (plain : ∀ entry ∈ entries, PlainName entry.name)
    (name : Text) :
    listedAccess (CText.strtok ',' (listText entries)) name =
      (entries.filter (·.name = name)).map AccessEntry.access := by
  rw [strtok_listText plain, listedAccess, List.filterMap_map]
  induction entries with
  | nil => rfl
  | cons entry entries ih =>
      have rest := ih fun other member => plain other (by simp [member])
      have parsed :=
        AccessEntry.parseAccessEntry_text (plain entry (by simp))
      rw [List.filterMap_cons, Function.comp_apply, parsed]
      by_cases same : entry.name = name
      · simp only [same, if_true]
        rw [rest]
        simp [same]
      · simp only [same, if_false]
        rw [rest]
        simp [same]

end Text

/-- What is searched for, for writing and for reading. -/
def searchText (user : Text) (writes : Bool) : Text :=
  user ++ if writes then ":RW".toList else ":R".toList

theorem searchText_eq (user : Text) (writes : Bool) :
    searchText user writes =
      user ++ ':' :: 'R' :: if writes then ['W'] else [] := by
  cases writes
  · rfl
  · rfl

/-- The search finds the end of this entry. -/
def Ends (user : Text) (writes : Bool) (entry : AccessEntry) : Prop :=
  user <:+ entry.name ∧ (writes = true → entry.writes = true)

instance (user : Text) (writes : Bool) (entry : AccessEntry) :
    Decidable (Ends user writes entry) :=
  inferInstanceAs (Decidable (_ ∧ _))

section Search

variable {user : Text} {writes : Bool} {entry : AccessEntry}
  {entries : List AccessEntry}

/-- What begins behind a colon has a comma before the next one. -/
theorem not_prefix_of_comma {letters rest behind : Text}
    (free : ',' ∉ user) (colonFree : ':' ∉ letters)
    (next : behind = [] ∨ ∃ more, behind = ',' :: more) :
    ¬ user ++ ':' :: rest <+: letters ++ behind := by
  induction user generalizing letters with
  | nil =>
      intro begins
      cases letters with
      | nil =>
          rcases next with rfl | ⟨more, rfl⟩
          · simp at begins
          · simp at begins
      | cons letter letters =>
          simp only [List.nil_append, List.cons_append,
            List.cons_prefix_cons] at begins
          exact colonFree (begins.1 ▸ List.mem_cons_self)
  | cons byte user ih =>
      intro begins
      cases letters with
      | nil =>
          rcases next with rfl | ⟨more, rfl⟩
          · simp at begins
          · simp only [List.nil_append, List.cons_append,
              List.cons_prefix_cons] at begins
            exact free (by simp [begins.1])
      | cons letter letters =>
          simp only [List.cons_append, List.cons_prefix_cons] at begins
          exact ih (fun member => free (by simp [member]))
            (fun member => colonFree (by simp [member])) begins.2

theorem letters_prefix (entry : AccessEntry) {behind : Text}
    (next : behind = [] ∨ ∃ more, behind = ',' :: more) :
    ('R' :: if writes then ['W'] else []) <+: entry.letters ++ behind ↔
      (writes = true → entry.writes = true) := by
  unfold AccessEntry.letters
  cases writes
  · cases entry.writes
    · simp
    · simp
  · cases entry.writes
    · rcases next with rfl | ⟨more, rfl⟩
      · simp
      · simp
    · simp

/-- From an entry to the comma behind it the search stops at the end of the
name only. -/
theorem searchText_prefix_iff (plain : PlainName entry.name)
    (free : ',' ∉ user) (colonFree : ':' ∉ user) {behind : Text}
    (next : behind = [] ∨ ∃ more, behind = ',' :: more) {start : Nat}
    (inside : start ≤ entry.text.length) :
    searchText user writes <+: (entry.text ++ behind).drop start ↔
      (start ≤ entry.name.length ∧ user = entry.name.drop start) ∧
        (writes = true → entry.writes = true) := by
  rw [searchText_eq, AccessEntry.text]
  by_cases inName : start ≤ entry.name.length
  · have dropFree : ':' ∉ entry.name.drop start := fun member =>
      plain.1 (List.mem_of_mem_drop member)
    rw [List.append_assoc, List.drop_append_of_le_length inName,
      List.cons_append, CText.prefix_at_separator colonFree dropFree,
      letters_prefix entry next]
    simp [inName]
  · obtain ⟨passed, rfl⟩ : ∃ passed,
        start = entry.name.length + (passed + 1) :=
      ⟨start - entry.name.length - 1, by omega⟩
    have inLetters : passed ≤ entry.letters.length := by
      simp only [AccessEntry.text, List.length_append,
        List.length_cons] at inside
      omega
    have colonLess : ':' ∉ entry.letters.drop passed := fun member =>
      AccessEntry.not_mem_letters (by decide) (by decide) entry
        (List.mem_of_mem_drop member)
    rw [List.append_assoc, List.drop_append, List.drop_of_length_le
      (by omega), Nat.add_sub_cancel_left, List.nil_append,
      List.cons_append, List.drop_succ_cons,
      List.drop_append_of_le_length inLetters]
    simp [inName, not_prefix_of_comma free colonLess next]

/-- The first entry at whose end the search stops, with the entries before
and behind it. -/
structure FoundAt (user : Text) (writes : Bool) (entries : List AccessEntry)
    (front : List AccessEntry) (entry : AccessEntry)
    (back : List AccessEntry) : Prop where
  split : entries = front ++ entry :: back
  passed : ∀ earlier ∈ front, ¬ Ends user writes earlier
  ends : Ends user writes entry

theorem listBack_cases (back : List AccessEntry) :
    listBack back = [] ∨ ∃ more, listBack back = ',' :: more := by
  cases back with
  | nil => exact .inl rfl
  | cons next back =>
      exact .inr ⟨next.text ++ listBack back, by simp [listBack]⟩

theorem strstr_entry (plain : PlainName entry.name) (free : ',' ∉ user)
    (colonFree : ':' ∉ user) (ends : Ends user writes entry)
    (back : List AccessEntry) :
    CText.strstr (searchText user writes) (entry.text ++ listBack back) =
      some (entry.name.length - user.length) := by
  obtain ⟨⟨tail, name⟩, letters⟩ := ends
  have next := listBack_cases back
  have size : entry.name.length = tail.length + user.length := by
    rw [← name, List.length_append]
  have textSize : entry.name.length ≤ entry.text.length := by
    simp [AccessEntry.text]
  have whole : entry.text ++ listBack back =
      tail ++ (entry.text ++ listBack back).drop tail.length := by
    rw [AccessEntry.text, ← name]
    simp
  have here : searchText user writes <+:
      (entry.text ++ listBack back).drop tail.length := by
    apply (searchText_prefix_iff plain free colonFree next (by omega)).mpr
    refine ⟨⟨by omega, ?_⟩, letters⟩
    rw [← name, List.drop_left]
  have clear : ∀ start, start < tail.length →
      ¬ searchText user writes <+:
        (tail ++ (entry.text ++ listBack back).drop tail.length).drop
          start := by
    intro start before begins
    rw [← whole] at begins
    obtain ⟨⟨_, same⟩, _⟩ := (searchText_prefix_iff plain free colonFree
      next (by omega)).mp begins
    have sizes := congrArg List.length same
    rw [List.length_drop] at sizes
    omega
  rw [whole, CText.strstr_append clear, CText.strstr_of_prefix here]
  simp
  omega

/-- An entry at whose end the search does not stop is passed. -/
theorem strstr_passed (plain : PlainName entry.name) (free : ',' ∉ user)
    (colonFree : ':' ∉ user) (passed : ¬ Ends user writes entry)
    (back : List AccessEntry) :
    CText.strstr (searchText user writes) (entry.text ++ listBack back) =
      (CText.strstr (searchText user writes) (listText back)).map
        (· + (entry.text.length + 1)) := by
  have next := listBack_cases back
  have clear : ∀ start, start ≤ entry.text.length →
      ¬ searchText user writes <+:
        (entry.text ++ listBack back).drop start := by
    intro start inside begins
    obtain ⟨⟨_, same⟩, letters⟩ := (searchText_prefix_iff plain free
      colonFree next inside).mp begins
    exact passed ⟨⟨entry.name.take start, by
      rw [same, List.take_append_drop]⟩, letters⟩
  cases back with
  | nil =>
      have inhabited : searchText user writes ≠ [] := by
        simp [searchText_eq]
      have found := @CText.strstr_append (searchText user writes)
        entry.text [] fun start before => clear start (by omega)
      simpa [listBack, listText, CText.strstr, inhabited] using found
  | cons following back =>
      have split : entry.text ++ listBack (following :: back) =
          (entry.text ++ [',']) ++ listText (following :: back) := by
        rw [listText_cons]
        simp [listBack]
      rw [split] at clear ⊢
      rw [CText.strstr_append]
      · simp
      · intro start before
        simp only [List.length_append, List.length_singleton] at before
        exact clear start (by omega)

/-- The search stops nowhere, or at the end of the first entry that ends as it
asks. -/
theorem strstr_listText (plain : ∀ entry ∈ entries, PlainName entry.name)
    (free : ',' ∉ user) (colonFree : ':' ∉ user) :
    (CText.strstr (searchText user writes) (listText entries) = none ∧
        ∀ entry ∈ entries, ¬ Ends user writes entry) ∨
      ∃ front entry back, FoundAt user writes entries front entry back ∧
        CText.strstr (searchText user writes) (listText entries) =
          some ((listFront front).length +
            (entry.name.length - user.length)) := by
  induction entries with
  | nil =>
      refine .inl ⟨?_, by simp⟩
      simp [listText, CText.strstr, searchText_eq]
  | cons entry entries ih =>
      have here := plain entry (by simp)
      have rest := ih fun other member => plain other (by simp [member])
      rw [listText_cons]
      by_cases ends : Ends user writes entry
      · refine .inr ⟨[], entry, entries, ⟨rfl, by simp, ends⟩, ?_⟩
        rw [strstr_entry here free colonFree ends]
        simp [listFront]
      · rw [strstr_passed here free colonFree ends]
        rcases rest with ⟨nowhere, none⟩ |
          ⟨front, found, back, ⟨split, passed, foundEnds⟩, position⟩
        · refine .inl ⟨by rw [nowhere]; rfl, ?_⟩
          intro other member
          rcases List.mem_cons.mp member with rfl | later
          · exact ends
          · exact none other later
        · refine .inr ⟨entry :: front, found, back,
            ⟨by rw [split]; rfl, ?_, foundEnds⟩, ?_⟩
          · intro other member
            rcases List.mem_cons.mp member with rfl | later
            · exact ends
            · exact passed other later
          · rw [position, Option.map_some]
            congr 1
            simp [listFront]
            omega

end Search

/-- The first entry that ends as asked, with the entries behind it. -/
def firstEnding (user : Text) (writes : Bool) :
    List AccessEntry → Option (AccessEntry × List AccessEntry)
  | [] => none
  | entry :: entries =>
      if Ends user writes entry then some (entry, entries)
      else firstEnding user writes entries

/-- The first entry for writing whose name ends in the user's, or else the
first entry for reading. -/
def revokeTarget (user : Text) (entries : List AccessEntry) :
    Option (AccessEntry × List AccessEntry) :=
  match firstEnding user true entries with
  | some found => some found
  | none => firstEnding user false entries

section Target

variable {username : Username} {user : Text} {writes : Bool}
  {entry : AccessEntry} {entries front back : List AccessEntry}

theorem firstEnding_eq_none
    (none : ∀ entry ∈ entries, ¬ Ends user writes entry) :
    firstEnding user writes entries = .none := by
  induction entries with
  | nil => rfl
  | cons entry entries ih =>
      rw [firstEnding, if_neg (none entry (by simp))]
      exact ih fun other member => none other (by simp [member])

theorem firstEnding_of_foundAt
    (found : FoundAt user writes entries front entry back) :
    firstEnding user writes entries = some (entry, back) := by
  obtain ⟨rfl, passed, ends⟩ := found
  induction front with
  | nil => rw [List.nil_append, firstEnding, if_pos ends]
  | cons first front ih =>
      rw [List.cons_append, firstEnding, if_neg (passed first (by simp))]
      exact ih fun other member => passed other (by simp [member])

/-- The position in the text belongs to the entry in the list. -/
theorem findAccessEntry_listText
    (plain : ∀ entry ∈ entries, PlainName entry.name)
    (free : ',' ∉ username.chars) (colonFree : ':' ∉ username.chars) :
    (findAccessEntry (listText entries) username = none ∧
        revokeTarget username.chars entries = none ∧
        ∀ entry ∈ entries, entry.name ≠ username.chars) ∨
      ∃ front entry back tail, entries = front ++ entry :: back ∧
        entry.name = tail ++ username.chars ∧
        revokeTarget username.chars entries = some (entry, back) ∧
        findAccessEntry (listText entries) username =
          some ((listFront front).length + tail.length) := by
  have writing := @strstr_listText username.chars true entries plain free
    colonFree
  have reading := @strstr_listText username.chars false entries plain free
    colonFree
  unfold findAccessEntry revokeTarget
  change CText.strstr (username.chars ++ ":RW".toList) _ = none ∧ _ ∨ _
    at writing
  change CText.strstr (username.chars ++ ":R".toList) _ = none ∧ _ ∨ _
    at reading
  rcases writing with ⟨nowhere, none⟩ | ⟨front, entry, back, found, position⟩
  · rw [nowhere, firstEnding_eq_none none]
    rcases reading with ⟨alsoNowhere, alsoNone⟩ |
      ⟨front, entry, back, found, position⟩
    · refine .inl ⟨alsoNowhere, firstEnding_eq_none alsoNone, ?_⟩
      intro entry member same
      exact alsoNone entry member ⟨same ▸ List.suffix_rfl, by simp⟩
    · obtain ⟨tail, name⟩ := found.ends.1
      refine .inr ⟨front, entry, back, tail, found.split, name.symm,
        firstEnding_of_foundAt found, ?_⟩
      rw [← name, List.length_append, Nat.add_sub_cancel] at position
      exact position
  · obtain ⟨tail, name⟩ := found.ends.1
    rw [← name, List.length_append, Nat.add_sub_cancel] at position
    have writes : CText.strstr (username.chars ++ ":RW".toList)
        (listText entries) =
          some ((listFront front).length + tail.length) := position
    rw [writes, firstEnding_of_foundAt found]
    exact .inr ⟨front, entry, back, tail, found.split, name.symm, rfl, rfl⟩

/-- The cut leaves the front of the name and what is behind the entry. -/
theorem cutAccessEntry_listText (plain : PlainName entry.name) {tail : Text}
    (name : entry.name = tail ++ user) (front back : List AccessEntry) :
    cutAccessEntry (listText (front ++ entry :: back))
        ((listFront front).length + tail.length) =
      if tail = [] then listText (front ++ back)
      else listFront front ++ (tail ++ listText back) := by
  have nameFree : ',' ∉ user ++ ':' :: entry.letters := by
    intro member
    apply AccessEntry.comma_not_mem_text plain
    rw [AccessEntry.text, name, List.append_assoc]
    exact List.mem_append_right tail member
  have before : (listText (front ++ entry :: back)).take
      ((listFront front).length + tail.length) = listFront front ++ tail := by
    rw [listText_append_cons, AccessEntry.text, name,
      List.take_length_add_append]
    simp
  have after : ((listText (front ++ entry :: back)).drop
      ((listFront front).length + tail.length)).dropWhile (· ≠ ',') =
        listBack back := by
    have rest : (listText (front ++ entry :: back)).drop
        ((listFront front).length + tail.length) =
          (user ++ ':' :: entry.letters) ++ listBack back := by
      rw [listText_append_cons, AccessEntry.text, name,
        List.drop_length_add_append]
      simp
    have passed : ∀ byte ∈ user ++ ':' :: entry.letters,
        decide (byte ≠ ',') = true := by
      intro byte member
      have different : byte ≠ ',' := fun same => nameFree (same ▸ member)
      simpa using different
    rw [rest, List.dropWhile_append_of_pos passed]
    rcases listBack_cases back with none | ⟨more, some⟩
    · simp [none]
    · simp [some]
  unfold cutAccessEntry
  rw [before, after]
  by_cases whole : tail = []
  · subst whole
    by_cases first : front = []
    · subst first
      have noComma : ¬ (listFront [] ++ []).getLast? = some ',' := by
        simp [listFront]
      rw [if_neg noComma, if_pos rfl, drop_listBack]
      rfl
    · obtain ⟨earlier, last, rfl⟩ :=
        (List.eq_nil_or_concat front).resolve_left first
      have comma : (listFront (earlier.concat last) ++ []).getLast? =
          some ',' := by
        simp [listFront]
      rw [if_pos comma, if_pos rfl, List.append_nil,
        listFront_dropLast first]
  · obtain ⟨first, last, rfl⟩ :=
      (List.eq_nil_or_concat tail).resolve_left whole
    have noComma : ¬ (listFront front ++ first.concat last).getLast? =
        some ',' := by
      intro comma
      have same : last = ',' := by simpa using comma
      apply plain.2
      rw [name, ← same]
      simp
    rw [if_neg noComma, if_neg whole, drop_listBack, List.append_assoc]

end Target

/-- The text is a list again, the user is not in it, and the others have what
they had. -/
structure Revoked (user before after : Text) : Prop where
  listed : ∃ entries, WellFormedList entries ∧ after = listText entries ∧
    ∀ entry ∈ entries, entry.name ≠ user
  others : ∀ name, name ≠ user →
    listedAccess (CText.strtok ',' after) name =
      listedAccess (CText.strtok ',' before) name

/-- What is found is the user's entry, or the user's entry with the same
access stands right behind it. -/
def RevokesOwn (user : Text) (entries : List AccessEntry) : Prop :=
  ∀ found ∈ revokeTarget user entries,
    found.1.name = user ∨ found.2.head? = some ⟨user, found.1.writes⟩

instance (user : Text) (entries : List AccessEntry) :
    Decidable (RevokesOwn user entries) :=
  inferInstanceAs (Decidable (∀ found ∈ revokeTarget user entries, _))

section Revocation

variable {username : Username} {user tail : Text}
  {entry next : AccessEntry} {entries front back : List AccessEntry}

theorem WellFormedList.others
    (wellFormed : WellFormedList (front ++ entry :: back)) :
    ∀ other ∈ front ++ back, other.name ≠ entry.name := by
  have distinct := wellFormed.distinct
  rw [List.map_append, List.map_cons, List.nodup_middle] at distinct
  intro other member same
  apply (List.nodup_cons.mp distinct).1
  rw [← List.map_append, ← same]
  exact List.mem_map_of_mem member

theorem filter_of_others (others : ∀ other ∈ entries, other.name ≠ user) :
    entries.filter (·.name = user) = [] := by
  rw [List.filter_eq_nil_iff]
  intro other member
  simpa using others other member

/-- A list without the user's entry. -/
theorem revoked_of_dropped
    (wellFormed : WellFormedList (front ++ entry :: back))
    (own : entry.name = user) :
    Revoked user (listText (front ++ entry :: back))
      (listText (front ++ back)) := by
  have sublist : (front ++ back).Sublist (front ++ entry :: back) :=
    List.Sublist.append_left (List.sublist_cons_self entry back) front
  have plain : ∀ other ∈ front ++ back, PlainName other.name :=
    fun other member => wellFormed.plain other (sublist.subset member)
  have inhabited : ∀ other ∈ front ++ back, other.name ≠ [] :=
    fun other member => wellFormed.inhabited other (sublist.subset member)
  constructor
  · refine ⟨front ++ back, ⟨wellFormed.distinct.sublist
      (sublist.map AccessEntry.name), inhabited, plain⟩, rfl, ?_⟩
    rw [← own]
    exact wellFormed.others
  · intro name different
    rw [listedAccess_listText plain, listedAccess_listText wellFormed.plain]
    have passed : ¬ entry.name = name := fun same =>
      different (same.symm.trans own)
    simp [passed]

theorem listText_merged (tail : Text) (front : List AccessEntry)
    (next : AccessEntry) (back : List AccessEntry) :
    listFront front ++ (tail ++ listText (next :: back)) =
      listText (front ++ ⟨tail ++ next.name, next.writes⟩ :: back) := by
  rw [listText_cons, listText_append_cons]
  simp [AccessEntry.text, AccessEntry.letters]

/-- A name without access at the end of a list is a token of its own. -/
theorem strtok_listFront (plain : ∀ entry ∈ front, PlainName entry.name)
    (inhabited : tail ≠ []) (free : ',' ∉ tail) :
    CText.strtok ',' (listFront front ++ tail) =
      front.map AccessEntry.text ++ [tail] := by
  induction front with
  | nil =>
      have alone := CText.strtok_of_not_mem free
      rw [if_neg inhabited] at alone
      exact alone
  | cons entry front ih =>
      have rest := ih fun other member => plain other (by simp [member])
      have more : entry.text ≠ [] := by simp [AccessEntry.text]
      have solid := AccessEntry.comma_not_mem_text (plain entry (by simp))
      have split : listFront (entry :: front) ++ tail =
          entry.text ++ ',' :: (listFront front ++ tail) := by
        simp [listFront]
      rw [split, CText.strtok_append_cons more solid, rest]
      rfl

/-- What is left of an entry that is only found by its end does not give its
user what the entry gave, unless the same entry is made up behind it. -/
theorem next_of_merged
    (wellFormed : WellFormedList (front ++ entry :: back))
    (name : entry.name = tail ++ user) (cut : tail ≠ [])
    (kept : listedAccess (CText.strtok ','
        (listFront front ++ (tail ++ listText back))) entry.name =
      listedAccess (CText.strtok ',' (listText (front ++ entry :: back)))
        entry.name) :
    back.head? = some ⟨user, entry.writes⟩ := by
  have plain := wellFormed.plain
  have others := wellFormed.others
  have frontPlain : ∀ other ∈ front, PlainName other.name :=
    fun other member => plain other (by simp [member])
  have frontFree := filter_of_others fun other member =>
    others other (List.mem_append_left back member)
  have backFree := filter_of_others fun other member =>
    others other (List.mem_append_right front member)
  have given : listedAccess (CText.strtok ',' (listText
      (front ++ entry :: back))) entry.name = [entry.access] := by
    rw [listedAccess_listText plain, List.filter_append, frontFree,
      List.filter_cons_of_pos (by simp), backFree]
    rfl
  obtain ⟨colonFree, commaFree⟩ := plain entry (by simp)
  rw [name] at commaFree colonFree
  have tailPlain : PlainName tail :=
    ⟨fun member => colonFree (List.mem_append_left _ member),
      fun member => commaFree (List.mem_append_left _ member)⟩
  rw [given] at kept
  cases back with
  | nil =>
      have before := listedAccess_listText frontPlain entry.name
      rw [strtok_listText frontPlain, frontFree] at before
      have bare := parseAccessEntry_of_free tailPlain.1
      rw [show listText [] = [] from rfl, List.append_nil,
        strtok_listFront frontPlain cut tailPlain.2, listedAccess,
        List.filterMap_append] at kept
      unfold listedAccess at before
      rw [before] at kept
      simp [bare] at kept
  | cons next back =>
      obtain ⟨nextColon, nextComma⟩ := plain next (by simp)
      have mergedPlain : ∀ other ∈
          front ++ ⟨tail ++ next.name, next.writes⟩ :: back,
            PlainName other.name := by
        intro other member
        rcases List.mem_append.mp member with earlier | later
        · exact frontPlain other earlier
        · rcases List.mem_cons.mp later with rfl | later
          · exact ⟨by simp [tailPlain.1, nextColon],
              by simp [tailPlain.2, nextComma]⟩
          · exact plain other (by simp [later])
      have behindFree : back.filter (·.name = entry.name) = [] :=
        filter_of_others fun other member => others other (by simp [member])
      rw [listText_merged, listedAccess_listText mergedPlain,
        List.filter_append, frontFree, List.nil_append,
        List.filter_cons] at kept
      simp only at kept
      split at kept
      · rename_i same
        have names : next.name = user := by
          have whole : tail ++ next.name = entry.name := by simpa using same
          rw [name] at whole
          exact List.append_cancel_left whole
        rw [behindFree] at kept
        have access : next.access = entry.access := by
          simpa [AccessEntry.access] using kept
        rw [List.head?_cons, ← names, ← AccessEntry.access_injective access]
      · rw [behindFree] at kept
        simp at kept

/-- Searching and cutting removes the user, and only the user, exactly when
the search finds the user's own entry first. -/
theorem revoked_iff (wellFormed : WellFormedList entries)
    (free : ',' ∉ username.chars) (colonFree : ':' ∉ username.chars) :
    Revoked username.chars (listText entries)
        (removeAccessEntry (listText entries) username) ↔
      RevokesOwn username.chars entries := by
  unfold RevokesOwn removeAccessEntry
  rcases findAccessEntry_listText wellFormed.plain free colonFree with
    ⟨nowhere, noTarget, absent⟩ |
      ⟨front, entry, back, tail, rfl, name, target, position⟩
  · rw [nowhere, noTarget]
    exact iff_of_true ⟨⟨entries, wellFormed, rfl, absent⟩, fun _ _ => rfl⟩
      (by simp)
  · rw [target, position]
    have plain := wellFormed.plain entry (by simp)
    simp only [cutAccessEntry_listText plain name, Option.mem_some_iff,
      forall_eq']
    split
    · rename_i whole
      have own : entry.name = username.chars := by
        rw [name, whole, List.nil_append]
      exact iff_of_true (revoked_of_dropped wellFormed own) (.inl own)
    · rename_i cut
      have other : entry.name ≠ username.chars := by
        intro same
        rw [name] at same
        exact cut (by simpa using same)
      constructor
      · intro revoked
        exact .inr (next_of_merged wellFormed name cut
          (revoked.others entry.name other))
      · intro condition
        have behind := condition.resolve_left other
        obtain ⟨rest, rfl⟩ := List.head?_eq_some_iff.mp behind
        have again : (⟨tail ++ username.chars, entry.writes⟩ :
            AccessEntry) = entry := by
          rw [← name]
        have split : front ++ entry :: ⟨username.chars, entry.writes⟩ ::
            rest = (front ++ [entry]) ++
              ⟨username.chars, entry.writes⟩ :: rest := by simp
        rw [listText_merged, again]
        have remaining : front ++ entry :: rest =
            (front ++ [entry]) ++ rest := by simp
        rw [split] at wellFormed ⊢
        rw [remaining]
        exact revoked_of_dropped wellFormed rfl

end Revocation

section Record

variable {s : FileHandler} {filename : Filename} {metadata : FileMetadata}
  {username : Username} {entries : List AccessEntry}

/-- A cut only takes bytes away. -/
theorem removeAccessEntry_sublist (accessList : Text) (username : Username) :
    (removeAccessEntry accessList username).Sublist accessList := by
  unfold removeAccessEntry
  split
  · exact List.Sublist.refl _
  · rename_i position _
    have rest : ((accessList.drop position).dropWhile (· ≠ ',')).Sublist
        (accessList.drop position) := (List.dropWhile_suffix _).sublist
    have whole := List.take_append_drop position accessList
    unfold cutAccessEntry
    simp only
    split
    · have both :=
        (List.dropLast_sublist (accessList.take position)).append rest
      rwa [whole] at both
    · have both := (List.Sublist.refl (accessList.take position)).append
        ((List.drop_sublist 1 _).trans rest)
      rwa [whole] at both

theorem copy_removeAccessEntry (accessList : DataText)
    (username : Username) :
    (CString.copy 4095
        (removeAccessEntry accessList.chars username)).chars =
      removeAccessEntry accessList.chars username := by
  have sublist := removeAccessEntry_sublist accessList.chars username
  have nulFree : CText.nul ∉ removeAccessEntry accessList.chars username :=
    fun member => accessList.nulFree (sublist.subset member)
  have short := sublist.length_le.trans accessList.fits
  simp only [CString.copy, CText.terminated_eq_self nulFree]
  exact List.take_of_length_le short

theorem findMetadata_removeUserAccessLl
    (record : findMetadata s filename = some metadata) :
    findMetadata (removeUserAccessLl s filename username).1 filename =
      some { metadata with
        accessList := CString.copy 4095
          (removeAccessEntry metadata.accessList.chars username) } := by
  simp only [removeUserAccessLl, record]
  change findMetadata (updateMetadata s filename _) filename = _
  rw [findMetadata_updateMetadata, record]
  · rfl
  · intro other
    rfl

/-- A revocation is acknowledged, and removes the user and nobody else exactly
when the search finds the user's own entry first. -/
theorem remove_access_iff
    (record : findMetadata s filename = some metadata)
    (listed : metadata.accessList.chars = listText entries)
    (wellFormed : WellFormedList entries)
    (free : ',' ∉ username.chars) (colonFree : ':' ∉ username.chars) :
    (removeUserAccessLl s filename username).2 = 0 ∧
      ∃ after, findMetadata (removeUserAccessLl s filename username).1
          filename = some after ∧
        (Revoked username.chars metadata.accessList.chars
            after.accessList.chars ↔
          RevokesOwn username.chars entries) := by
  refine ⟨by simp only [removeUserAccessLl, record], _,
    findMetadata_removeUserAccessLl record, ?_⟩
  rw [copy_removeAccessEntry, listed]
  exact revoked_iff wellFormed free colonFree

end Record

private def twoReaders : FileMetadata :=
  { newMetadata (CString.copy 255 "f".toList)
      (CString.copy 63 "ann".toList) (CString.copy 63 []) with
    accessList := CString.copy 4095 "bob:R,cbob:RW".toList }

private def twoReadersServer : FileHandler :=
  { freshServer with metadataList := [twoReaders] }

private def twoReadersList : List AccessEntry :=
  [⟨"bob".toList, false⟩, ⟨"cbob".toList, true⟩]

private theorem twoReadersList_wellFormed : WellFormedList twoReadersList :=
  ⟨by decide +kernel, by simp [twoReadersList],
    by simp [twoReadersList, PlainName]⟩

/-- The longer name is found by its own entry. -/
theorem remove_longer_name :
    ∃ after, findMetadata (removeUserAccessLl twoReadersServer
        twoReaders.filename (CString.copy 63 "cbob".toList)).1
          twoReaders.filename = some after ∧
      Revoked "cbob".toList twoReaders.accessList.chars
        after.accessList.chars := by
  obtain ⟨_, after, found, revoked⟩ := @remove_access_iff twoReadersServer
    twoReaders.filename twoReaders (CString.copy 63 "cbob".toList)
    twoReadersList (by decide +kernel) (by decide +kernel)
    twoReadersList_wellFormed (by decide +kernel) (by decide +kernel)
  exact ⟨after, found, revoked.mpr (by decide +kernel)⟩

/-- The shorter name is found in the longer one: `bob:R,c` is left. -/
theorem remove_shorter_name :
    ¬ ∀ (s : FileHandler) (filename : Filename) (metadata : FileMetadata)
        (username : Username) (entries : List AccessEntry),
      findMetadata s filename = some metadata →
      metadata.accessList.chars = listText entries →
      WellFormedList entries → username.chars ≠ [] →
      PlainName username.chars →
      ∃ after, findMetadata (removeUserAccessLl s filename username).1
          filename = some after ∧
        Revoked username.chars metadata.accessList.chars
          after.accessList.chars := by
  intro claim
  obtain ⟨after, found, revoked⟩ := claim twoReadersServer
    twoReaders.filename twoReaders (CString.copy 63 "bob".toList)
    twoReadersList (by decide +kernel) (by decide +kernel)
    twoReadersList_wellFormed (by decide +kernel)
    ⟨by decide +kernel, by decide +kernel⟩
  have left : after.accessList.chars = "bob:R,c".toList := by
    have same : findMetadata (removeUserAccessLl twoReadersServer
        twoReaders.filename (CString.copy 63 "bob".toList)).1
          twoReaders.filename = some { twoReaders with
            accessList := CString.copy 4095 "bob:R,c".toList } := by
      decide +kernel
    rw [same] at found
    cases found
    decide +kernel
  have kept := revoked.others "cbob".toList (by decide +kernel)
  rw [left] at kept
  exact absurd kept (by decide +kernel)

end Dfs.StorageServer
