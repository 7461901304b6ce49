import Mathlib.Data.List.Infix
import Mathlib.Data.List.TakeWhile

/-!
# Byte strings as C programs read them

A `Text` is a sequence of bytes, one character each.  A `CString` is what a
character array of fixed size can hold: bounded and free of the terminator.
The searching and splitting routines follow the C standard library.
-/

abbrev Text := List Char

namespace CText

def nul : Char := '\x00'

/-- What a pointer to these bytes reads as: everything before the first NUL. -/
def terminated (bytes : Text) : Text :=
  bytes.takeWhile (· ≠ nul)

theorem terminated_eq_self {bytes : Text} (nulFree : nul ∉ bytes) :
    terminated bytes = bytes := by
  apply List.takeWhile_eq_self_iff.mpr
  intro byte member
  have different : byte ≠ nul := fun same => nulFree (same ▸ member)
  simpa using different

theorem terminated_append_nul {bytes : Text} (nulFree : nul ∉ bytes)
    (rest : Text) : terminated (bytes ++ nul :: rest) = bytes := by
  have whole := terminated_eq_self nulFree
  unfold terminated at whole ⊢
  rw [List.takeWhile_append_of_pos (List.takeWhile_eq_self_iff.mp whole),
    List.takeWhile_cons_of_neg (by simp), List.append_nil]

theorem nul_not_mem_terminated (bytes : Text) : nul ∉ terminated bytes := by
  intro member
  simpa using List.mem_takeWhile_imp member

/-- The value of a byte read through a signed `char`. -/
def charValue (byte : Char) : Int :=
  if byte.toNat < 128 then byte.toNat else (byte.toNat : Int) - 256

/-- The `hash * 33 + c` string hash in unsigned arithmetic of `bits` bits. -/
def djb2 (bits : Nat) (text : Text) : Nat :=
  text.foldl
    (fun hash byte =>
      (((hash : Int) * 33 + charValue byte) % Nat.pow 2 bits).toNat)
    5381

/-- The C white-space characters of `isspace`. -/
def isSpace (byte : Char) : Bool :=
  byte == ' ' || byte == '\t' || byte == '\n' || byte == '\x0b' ||
    byte == '\x0c' || byte == '\r'

/-- Single spaces between the pieces. -/
def joinSpaces (pieces : List Text) : Text :=
  [' '].intercalate pieces

/-- All tokens `strtok` returns for one separator: empty ones are skipped. -/
def strtok (separator : Char) (text : Text) : List Text :=
  (text.splitOn separator).filter (· ≠ [])

/-- Append at most `count` bytes of a string. -/
def strncat (target source : Text) (count : Nat) : Text :=
  target ++ (terminated source).take count

/-- The first offset at which `pattern` occurs. -/
def strstr (pattern : Text) : Text → Option Nat
  | [] => if pattern = [] then some 0 else none
  | byte :: rest =>
      if pattern.isPrefixOf (byte :: rest) then some 0
      else (strstr pattern rest).map (· + 1)

theorem joinSpaces_nil : joinSpaces [] = [] := rfl

theorem joinSpaces_singleton (piece : Text) : joinSpaces [piece] = piece := by
  simp [joinSpaces]

theorem joinSpaces_cons {piece : Text} {pieces : List Text}
    (more : pieces ≠ []) :
    joinSpaces (piece :: pieces) = piece ++ ' ' :: joinSpaces pieces := by
  rw [joinSpaces, List.intercalate_cons_of_ne_nil more]
  simp [joinSpaces]

theorem joinSpaces_append {first second : List Text}
    (firstMore : first ≠ []) (secondMore : second ≠ []) :
    joinSpaces (first ++ second) =
      joinSpaces first ++ ' ' :: joinSpaces second := by
  induction first with
  | nil => exact (firstMore rfl).elim
  | cons piece pieces ih =>
      cases pieces with
      | nil =>
          rw [List.singleton_append, joinSpaces_cons secondMore,
            joinSpaces_singleton]
      | cons next pieces =>
          have tail := ih (by simp)
          have appended : next :: pieces ++ second ≠ [] := by simp
          have more : next :: pieces ≠ [] := by simp
          rw [List.cons_append, joinSpaces_cons appended, tail,
            joinSpaces_cons more, List.append_assoc, List.cons_append]

/-- Joining groups of pieces and then the groups is joining all pieces, as
long as no group is empty. -/
theorem joinSpaces_flatten {groups : List (List Text)}
    (inhabited : ∀ group ∈ groups, group ≠ []) :
    joinSpaces (groups.map joinSpaces) = joinSpaces groups.flatten := by
  induction groups with
  | nil => rfl
  | cons group groups ih =>
      have groupMore := inhabited group (by simp)
      have tail := ih fun other member => inhabited other (by simp [member])
      cases groups with
      | nil => simp [joinSpaces_singleton]
      | cons next groups =>
          have nextMore := inhabited next (by simp)
          have restMore : (next :: groups).flatten ≠ [] := by simp [nextMore]
          have mappedMore : (next :: groups).map joinSpaces ≠ [] := by simp
          rw [List.map_cons, joinSpaces_cons mappedMore, tail,
            ← joinSpaces_append groupMore restMore]
          rfl

theorem not_mem_joinSpaces {byte : Char} {pieces : List Text}
    (different : byte ≠ ' ') (absent : ∀ piece ∈ pieces, byte ∉ piece) :
    byte ∉ joinSpaces pieces := by
  induction pieces with
  | nil => simp [joinSpaces_nil]
  | cons piece pieces ih =>
      have tail := ih fun other member => absent other (by simp [member])
      cases pieces with
      | nil => simpa [joinSpaces_singleton] using absent piece (by simp)
      | cons next pieces =>
          rw [joinSpaces_cons (by simp)]
          simp [absent piece (by simp), different, tail]

/-- A token of one of the pieces is a token of the joined text. -/
theorem mem_splitOn_joinSpaces {token piece : Text} {pieces : List Text}
    (member : piece ∈ pieces) (inside : token ∈ piece.splitOn ' ') :
    token ∈ (joinSpaces pieces).splitOn ' ' := by
  induction pieces with
  | nil => cases member
  | cons first pieces ih =>
      cases pieces with
      | nil =>
          rw [joinSpaces_singleton, ← List.mem_singleton.mp member]
          exact inside
      | cons next pieces =>
          rw [joinSpaces_cons (by simp), List.splitOn_append_cons_self]
          rcases List.mem_cons.mp member with same | later
          · exact List.mem_append_left _ (same ▸ inside)
          · exact List.mem_append_right _ (ih later)

section Searching

variable {pattern : Text}

theorem strstr_cons (pattern : Text) (byte : Char) (rest : Text) :
    strstr pattern (byte :: rest) =
      if pattern.isPrefixOf (byte :: rest) then some 0
      else (strstr pattern rest).map (· + 1) := rfl

theorem strstr_eq_none_iff {text : Text} :
    strstr pattern text = none ↔ ¬ pattern <:+: text := by
  induction text with
  | nil =>
      rw [List.infix_nil]
      simp [strstr]
  | cons byte rest ih =>
      rw [strstr_cons, List.infix_cons_iff, not_or, ← ih,
        ← List.isPrefixOf_iff_prefix]
      by_cases here : pattern.isPrefixOf (byte :: rest) = true
      · simp [here]
      · simp [here]

theorem strstr_of_prefix {text : Text} (here : pattern <+: text) :
    strstr pattern text = some 0 := by
  cases text with
  | nil =>
      rw [List.prefix_nil] at here
      simp [strstr, here]
  | cons byte rest =>
      rw [strstr_cons, if_pos (List.isPrefixOf_iff_prefix.mpr here)]

/-- Bytes at which the pattern does not begin are passed over. -/
theorem strstr_append {front back : Text}
    (clear : ∀ start, start < front.length →
      ¬ pattern <+: (front ++ back).drop start) :
    strstr pattern (front ++ back) =
      (strstr pattern back).map (· + front.length) := by
  induction front with
  | nil => simp
  | cons byte front ih =>
      have here : ¬ pattern.isPrefixOf (byte :: (front ++ back)) = true := by
        rw [List.isPrefixOf_iff_prefix]
        exact clear 0 (by simp)
      have rest := ih fun start before =>
        clear (start + 1) (by simpa using before)
      rw [List.cons_append, strstr_cons, if_neg here, rest, Option.map_map]
      rfl

variable {separator : Char} {front back : Text}

theorem prefix_append_cons_iff (free : separator ∉ pattern) :
    pattern <+: front ++ separator :: back ↔ pattern <+: front := by
  induction front generalizing pattern with
  | nil =>
      cases pattern with
      | nil => simp
      | cons byte pattern =>
          have different : byte ≠ separator := fun same =>
            free (same ▸ List.mem_cons_self)
          simp [different]
  | cons first front ih =>
      cases pattern with
      | nil => simp
      | cons byte pattern =>
          have rest : separator ∉ pattern := fun member =>
            free (List.mem_cons_of_mem byte member)
          rw [List.cons_append, List.cons_prefix_cons,
            List.cons_prefix_cons, ih rest]

/-- What has no separator lies on one side of it. -/
theorem infix_append_cons_iff (free : separator ∉ pattern) :
    pattern <:+: front ++ separator :: back ↔
      pattern <:+: front ∨ pattern <:+: back := by
  induction front with
  | nil =>
      have here := @prefix_append_cons_iff pattern separator [] back free
      rw [List.nil_append] at here ⊢
      rw [List.infix_cons_iff, here, List.prefix_nil, List.infix_nil]
  | cons first front ih =>
      have here := @prefix_append_cons_iff pattern separator (first :: front)
        back free
      rw [List.cons_append] at here ⊢
      rw [List.infix_cons_iff, here, ih, List.infix_cons_iff, or_assoc]

theorem infix_intercalate_iff (free : separator ∉ pattern)
    {pieces : List Text} (inhabited : pieces ≠ []) :
    pattern <:+: [separator].intercalate pieces ↔
      ∃ piece ∈ pieces, pattern <:+: piece := by
  induction pieces with
  | nil => exact (inhabited rfl).elim
  | cons piece pieces ih =>
      cases pieces with
      | nil => simp
      | cons next pieces =>
          rw [List.intercalate_cons_of_ne_nil (by simp), List.append_assoc,
            List.singleton_append, infix_append_cons_iff free, ih (by simp)]
          simp

/-- A front that lacks the first byte of a pattern is passed over. -/
theorem infix_append_iff_of_head {byte : Char} (absent : byte ∉ front) :
    byte :: pattern <:+: front ++ back ↔ byte :: pattern <:+: back := by
  induction front with
  | nil => rfl
  | cons first front ih =>
      have different : byte ≠ first := fun same =>
        absent (same ▸ List.mem_cons_self)
      rw [List.cons_append, List.infix_cons_iff, List.cons_prefix_cons,
        ih fun member => absent (List.mem_cons_of_mem first member)]
      simp [different]

/-- The first separator of a pattern falls on the first one of the text. -/
theorem prefix_at_separator {rest behind : Text}
    (free : separator ∉ pattern) (frontFree : separator ∉ front) :
    pattern ++ separator :: rest <+: front ++ separator :: behind ↔
      pattern = front ∧ rest <+: behind := by
  induction pattern generalizing front with
  | nil =>
      cases front with
      | nil => simp
      | cons first front =>
          have different : separator ≠ first := fun same =>
            frontFree (same ▸ List.mem_cons_self)
          simp [different]
  | cons byte pattern ih =>
      have patternFree : separator ∉ pattern := fun member =>
        free (List.mem_cons_of_mem byte member)
      cases front with
      | nil =>
          have different : byte ≠ separator := fun same =>
            free (same ▸ List.mem_cons_self)
          simp [different]
      | cons first front =>
          have behindFree : separator ∉ front := fun member =>
            frontFree (List.mem_cons_of_mem first member)
          rw [List.cons_append, List.cons_append, List.cons_prefix_cons,
            ih patternFree behindFree, List.cons_eq_cons, and_assoc]

/-- A pattern with a separator lies around the first one of the text or
behind it. -/
theorem infix_at_separator {rest behind : Text}
    (free : separator ∉ pattern) (frontFree : separator ∉ front) :
    pattern ++ separator :: rest <:+: front ++ separator :: behind ↔
      pattern <:+ front ∧ rest <+: behind ∨
        pattern ++ separator :: rest <:+: behind := by
  induction front with
  | nil =>
      have here := @prefix_at_separator pattern separator [] rest behind free
        frontFree
      rw [List.nil_append] at here ⊢
      rw [List.infix_cons_iff, here, List.suffix_nil]
  | cons first front ih =>
      have later := ih fun member =>
        frontFree (List.mem_cons_of_mem first member)
      have here := @prefix_at_separator pattern separator (first :: front)
        rest behind free frontFree
      rw [List.cons_append] at here ⊢
      rw [List.infix_cons_iff, here, later, List.suffix_cons_iff,
        or_and_right, or_assoc]

/-- What a pointer to the first occurrence reads. -/
def fromFirst (opening text : Text) : Option Text :=
  (strstr opening text).map (text.drop ·)

theorem fromFirst_cons (opening : Text) (byte : Char) (rest : Text) :
    fromFirst opening (byte :: rest) =
      if opening.isPrefixOf (byte :: rest) then some (byte :: rest)
      else fromFirst opening rest := by
  unfold fromFirst
  rw [strstr_cons]
  split
  · rfl
  · rw [Option.map_map]
    rfl

theorem fromFirst_eq_none_iff {opening text : Text} :
    fromFirst opening text = none ↔ ¬ opening <:+: text := by
  rw [fromFirst, Option.map_eq_none_iff, strstr_eq_none_iff]

theorem fromFirst_append_of_head {byte : Char} (absent : byte ∉ front) :
    fromFirst (byte :: pattern) (front ++ back) =
      fromFirst (byte :: pattern) back := by
  induction front with
  | nil => rfl
  | cons first front ih =>
      have passed : ¬ (byte :: pattern).isPrefixOf
          (first :: (front ++ back)) = true := by
        rw [List.isPrefixOf_iff_prefix, List.cons_prefix_cons]
        rintro ⟨same, _⟩
        exact absent (same ▸ List.mem_cons_self)
      rw [List.cons_append, fromFirst_cons, if_neg passed,
        ih fun member => absent (List.mem_cons_of_mem first member)]

/-- Lines are searched one after the other. -/
theorem fromFirst_append_cons (free : separator ∉ pattern) :
    fromFirst pattern (front ++ separator :: back) =
      match fromFirst pattern front with
      | some found => some (found ++ separator :: back)
      | none => fromFirst pattern back := by
  induction front with
  | nil =>
      have here := @prefix_append_cons_iff pattern separator [] back free
      rw [List.nil_append, List.prefix_nil] at here
      rw [List.nil_append, fromFirst_cons]
      by_cases empty : pattern = []
      · subst empty
        rfl
      · have passed : ¬ pattern.isPrefixOf (separator :: back) = true := by
          rw [List.isPrefixOf_iff_prefix, here]
          exact empty
        have nothing : fromFirst pattern [] = none :=
          fromFirst_eq_none_iff.mpr (by simpa [List.infix_nil] using empty)
        rw [if_neg passed, nothing]
  | cons first front ih =>
      have here := @prefix_append_cons_iff pattern separator (first :: front)
        back free
      rw [List.cons_append] at here ⊢
      rw [fromFirst_cons, fromFirst_cons, ih]
      by_cases begins : pattern <+: first :: front
      · rw [if_pos (List.isPrefixOf_iff_prefix.mpr (here.mpr begins)),
          if_pos (List.isPrefixOf_iff_prefix.mpr begins)]
        rfl
      · have passed := mt (List.isPrefixOf_iff_prefix.mp) (mt here.mp begins)
        rw [if_neg passed,
          if_neg (mt List.isPrefixOf_iff_prefix.mp begins)]

end Searching

/-- Appends bounded by what is left of a buffer cut the whole at its size. -/
theorem strncat_eq_take {limit : Nat} {target source : Text}
    (nulFree : nul ∉ source) :
    strncat (target.take limit) source (limit - (target.take limit).length) =
      (target ++ source).take limit := by
  rw [strncat, terminated_eq_self nulFree, List.take_append,
    List.length_take]
  congr 2
  omega

/-- A token before the first separator. -/
theorem strtok_append_cons {separator : Char} {token : Text}
    (inhabited : token ≠ []) (solid : separator ∉ token) (rest : Text) :
    strtok separator (token ++ separator :: rest) =
      token :: strtok separator rest := by
  unfold strtok
  rw [List.splitOn_append_cons_self, List.splitOn_eq_singleton solid]
  simp [inhabited]

theorem strtok_of_not_mem {separator : Char} {token : Text}
    (solid : separator ∉ token) :
    strtok separator token = if token = [] then [] else [token] := by
  unfold strtok
  rw [List.splitOn_eq_singleton solid]
  by_cases empty : token = []
  · simp [empty]
  · simp [empty]

theorem flatten_splitOn (separator : Char) (text : Text) :
    (text.splitOn separator).flatten = text.filter (· != separator) := by
  induction text with
  | nil => simp
  | cons byte text ih =>
      rw [List.splitOn_eq_splitOnP] at ih ⊢
      rw [List.splitOnP_cons_eq_if_modifyHead]
      by_cases same : byte = separator
      · simp [same, ih]
      · obtain ⟨first, rest, split⟩ := List.exists_cons_of_ne_nil
          (List.splitOnP_ne_nil (· == separator) text)
        rw [split] at ih
        simp [same, split, ← ih]

/-- The tokens hold all bytes but the separators. -/
theorem flatten_strtok (separator : Char) (text : Text) :
    (strtok separator text).flatten = text.filter (· != separator) := by
  rw [strtok, List.flatten_filter_ne_nil, flatten_splitOn]

theorem intercalate_cons_cons (separator : Char) (token next : Text)
    (tokens : List Text) :
    [separator].intercalate (token :: next :: tokens) =
      token ++ separator :: [separator].intercalate (next :: tokens) := by
  rw [List.intercalate_cons_of_ne_nil (by simp), List.append_assoc]
  rfl

theorem infix_intercalate (separator : Char) {piece : Text}
    {pieces : List Text} (member : piece ∈ pieces) :
    piece <:+: [separator].intercalate pieces := by
  induction pieces with
  | nil => cases member
  | cons first pieces ih =>
      cases pieces with
      | nil =>
          rw [List.mem_singleton.mp member, List.intercalate_singleton]
      | cons next pieces =>
          rw [intercalate_cons_cons]
          rcases List.mem_cons.mp member with rfl | later
          · exact (List.prefix_append _ _).isInfix
          · exact (ih later).trans (List.IsSuffix.isInfix
              ⟨first ++ [separator], by simp⟩)

/-- What a token is: a part of the text, not empty, without separator. -/
structure TokenOf (separator : Char) (text token : Text) : Prop where
  inhabited : token ≠ []
  solid : separator ∉ token
  part : token <:+: text

theorem mem_strtok {separator : Char} {text token : Text}
    (member : token ∈ strtok separator text) :
    TokenOf separator text token := by
  obtain ⟨inside, inhabited⟩ := List.mem_filter.mp member
  refine ⟨by simpa using inhabited, ?_, ?_⟩
  · intro found
    have all : separator ∈ (strtok separator text).flatten :=
      List.mem_flatten.mpr ⟨token, member, found⟩
    rw [flatten_strtok] at all
    simpa using (List.mem_filter.mp all).2
  · have part := infix_intercalate separator inside
    rwa [List.intercalate_splitOn] at part

/-- What has no separator lies within a token. -/
theorem infix_iff_token {separator : Char} {pattern text : Text}
    (free : separator ∉ pattern) (inhabited : pattern ≠ []) :
    pattern <:+: text ↔
      ∃ token ∈ strtok separator text, pattern <:+: token := by
  have pieces : text.splitOn separator ≠ [] := by
    rw [List.splitOn_eq_splitOnP]
    exact List.splitOnP_ne_nil _ _
  have parts := infix_intercalate_iff free pieces
  rw [List.intercalate_splitOn] at parts
  rw [parts]
  constructor
  · rintro ⟨piece, member, part⟩
    refine ⟨piece, List.mem_filter.mpr ⟨member, ?_⟩, part⟩
    have more : piece ≠ [] := fun nothing =>
      inhabited (List.infix_nil.mp (nothing ▸ part))
    simpa using more
  · rintro ⟨token, member, part⟩
    exact ⟨token, (List.mem_filter.mp member).1, part⟩

/-- Joined tokens are found again. -/
theorem strtok_intercalate {separator : Char} {tokens : List Text}
    (tokenlike : ∀ token ∈ tokens, token ≠ [] ∧ separator ∉ token) :
    strtok separator ([separator].intercalate tokens) = tokens := by
  induction tokens with
  | nil => rfl
  | cons token tokens ih =>
      obtain ⟨inhabited, solid⟩ := tokenlike token (by simp)
      have rest := ih fun other member => tokenlike other (by simp [member])
      cases tokens with
      | nil => simp [strtok_of_not_mem solid, inhabited]
      | cons next tokens =>
          rw [intercalate_cons_cons, strtok_append_cons inhabited solid, rest]

theorem intercalate_concat_append (separator : Char) (tokens : List Text)
    (last tail : Text) :
    [separator].intercalate (tokens ++ [last ++ tail]) =
      [separator].intercalate (tokens ++ [last]) ++ tail := by
  induction tokens with
  | nil => simp
  | cons token tokens ih =>
      rw [List.cons_append, List.cons_append,
        List.intercalate_cons_of_ne_nil (by simp),
        List.intercalate_cons_of_ne_nil (by simp), ih]
      simp

/-- Joined tokens cut at `limit` give the tokens before the cut, and what is
left of the one it fell into. -/
def CutAt (separator : Char) (tokens : List Text) (limit : Nat) : Prop :=
  ∃ front kept lost back, tokens = front ++ (kept ++ lost) :: back ∧
    lost ≠ [] ∧
    strtok separator (([separator].intercalate tokens).take limit) =
      front ++ (if kept = [] then [] else [kept]) ∧
    (back = [] → kept ≠ [] →
      ([separator].intercalate tokens).length = limit + lost.length)

section CutAt

variable {separator : Char} {token next : Text} {tokens : List Text}

theorem cutAt_inside (solid : separator ∉ token) {limit : Nat}
    (inside : limit < token.length) :
    CutAt separator (token :: tokens) limit := by
  have keptSolid : separator ∉ token.take limit := fun member =>
    solid (List.mem_of_mem_take member)
  have left : ([separator].intercalate (token :: tokens)).take limit =
      token.take limit := by
    cases tokens with
    | nil => simp
    | cons next tokens =>
        rw [intercalate_cons_cons,
          List.take_append_of_le_length (by omega)]
  refine ⟨[], token.take limit, token.drop limit, tokens, by simp, ?_, ?_, ?_⟩
  · intro nothing
    have short := List.drop_eq_nil_iff.mp nothing
    omega
  · rw [left, strtok_of_not_mem keptSolid, List.nil_append]
  · intro alone _
    subst alone
    simp
    omega

theorem cutAt_end (inhabited : token ≠ []) (solid : separator ∉ token)
    (more : next ≠ []) :
    CutAt separator (token :: next :: tokens) token.length := by
  refine ⟨[token], [], next, tokens, by simp, more, ?_, by simp⟩
  rw [intercalate_cons_cons, List.take_left, strtok_of_not_mem solid]
  simp [inhabited]

theorem cutAt_beyond (inhabited : token ≠ []) (solid : separator ∉ token)
    {rest : Nat} (later : CutAt separator (next :: tokens) rest) :
    CutAt separator (token :: next :: tokens) (token.length + 1 + rest) := by
  obtain ⟨front, kept, lost, back, split, cutLost, found, size⟩ := later
  have left : (token ++ separator :: [separator].intercalate
      (next :: tokens)).take (token.length + 1 + rest) =
      token ++ separator :: ([separator].intercalate
        (next :: tokens)).take rest := by
    rw [Nat.add_assoc, List.take_length_add_append, Nat.add_comm 1,
      List.take_succ_cons]
  refine ⟨token :: front, kept, lost, back, by rw [split]; rfl, cutLost, ?_,
    ?_⟩
  · rw [intercalate_cons_cons, left, strtok_append_cons inhabited solid,
      found, List.cons_append]
  · intro last more
    have sizes := size last more
    rw [intercalate_cons_cons]
    simp only [List.length_append, List.length_cons]
    omega

theorem strtok_take_intercalate
    (tokenlike : ∀ token ∈ tokens, token ≠ [] ∧ separator ∉ token)
    {limit : Nat} (cut : limit < ([separator].intercalate tokens).length) :
    CutAt separator tokens limit := by
  induction tokens generalizing limit with
  | nil => simp at cut
  | cons token tokens ih =>
      obtain ⟨inhabited, solid⟩ := tokenlike token (by simp)
      have others : ∀ other ∈ tokens, other ≠ [] ∧ separator ∉ other :=
        fun other member => tokenlike other (by simp [member])
      by_cases inside : limit < token.length
      · exact cutAt_inside solid inside
      · cases tokens with
        | nil =>
            simp only [List.intercalate_singleton] at cut
            omega
        | cons next tokens =>
            rw [intercalate_cons_cons, List.length_append,
              List.length_cons] at cut
            by_cases atEnd : limit = token.length
            · rw [atEnd]
              exact cutAt_end inhabited solid (others next (by simp)).1
            · have beyond : ∃ rest, limit = token.length + 1 + rest :=
                ⟨limit - token.length - 1, by omega⟩
              obtain ⟨rest, rfl⟩ := beyond
              exact cutAt_beyond inhabited solid (ih others (by omega))

end CutAt

theorem joinSpaces_splitOn (text : Text) :
    joinSpaces (text.splitOn ' ') = text :=
  List.intercalate_splitOn ' '

end CText

/-- A string held in a character array with room for `capacity` bytes and the
terminator. -/
structure CString (capacity : Nat) where
  chars : Text
  fits : chars.length ≤ capacity
  nulFree : CText.nul ∉ chars
  deriving DecidableEq, Repr

namespace CString

variable {capacity : Nat}

@[ext] theorem ext {left right : CString capacity}
    (equal : left.chars = right.chars) : left = right := by
  cases left
  cases right
  cases equal
  rfl

/-- Bounded copy into the array, as `strncpy` and `snprintf` do it. -/
def copy (capacity : Nat) (text : Text) : CString capacity :=
  { chars := (CText.terminated text).take capacity
    fits := List.length_take_le _ _
    nulFree := fun member =>
      CText.nul_not_mem_terminated text (List.mem_of_mem_take member) }

@[simp] theorem copy_chars (string : CString capacity) :
    copy capacity string.chars = string := by
  apply ext
  simp [copy, CText.terminated_eq_self string.nulFree,
    List.take_of_length_le string.fits]

end CString
