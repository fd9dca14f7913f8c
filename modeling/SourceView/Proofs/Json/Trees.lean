import SourceView.Proofs.Json.Tokens
import SourceView.Proofs.NameMap

/-! JSON values that are written read back as themselves.
A value is followed through the tokens of its text and the tree that they are read as.
-/

namespace SourceView.Json

open Text.Utf8 (encode)
open Written (readValue? readAfter?)

-----------------------------------------------------------------------------------------
-- Values and their texts
-----------------------------------------------------------------------------------------

/-- Values with nothing in them that reading them back could lose: numbers are whole and in range,
the names of each object are in order, and nothing nests deeper than `depth`.
-/
inductive Tame : Nat → Json → Prop
  | null {depth} : Tame depth .null
  | bool {depth} (value : Bool) : Tame depth (.bool value)
  | whole {depth value} (inRange : InRange value) : Tame depth (.number (.whole value))
  | string {depth} (value : String) : Tame depth (.string value)
  | array {depth items} (inside : ∀ item ∈ items, Tame depth item)
    : Tame (depth + 1) (.array items)
  | object {depth members} (ascending : (members.map Prod.fst).Pairwise (· < ·))
    (inside : ∀ member ∈ members, Tame depth member.2)
    : Tame (depth + 1) (.object members)

/-- What does not nest deeper than a depth does not nest deeper than a greater one, by induction on
the value.
-/
theorem Tame.of_le {depth deeper : Nat} {value : Json} (tame : Tame depth value)
    (le : depth ≤ deeper)
    : Tame deeper value := by
  induction tame generalizing deeper with
  | null => exact .null
  | bool value => exact .bool value
  | whole inRange => exact .whole inRange
  | string value => exact .string value
  | array _ ih =>
      obtain ⟨deeper, rfl⟩ : ∃ less, deeper = less + 1 := ⟨deeper - 1, by omega⟩
      exact .array fun item member => ih item member (by omega)
  | object ascending _ ih =>
      obtain ⟨deeper, rfl⟩ : ∃ less, deeper = less + 1 := ⟨deeper - 1, by omega⟩
      exact .object ascending fun entry member => ih entry member (by omega)

/-- The items of an array are written one by one, by induction on the items. -/
theorem itemChars_eq (items : List Json) : itemChars items = items.map chars := by
  induction items with
  | nil => rfl
  | cons item rest ih => rw [itemChars, ih, List.map_cons]

/-- The text of a member. -/
def memberText (member : String × Json) : List Char :=
  renderString member.1 ++ ':' :: chars member.2

/-- The members of an object are written one by one, by induction on the members. -/
theorem memberChars_eq (members : List (String × Json))
    : memberChars members = members.map fun member => (member.1, memberText member) := by
  induction members with
  | nil => rfl
  | cons member rest ih =>
      obtain ⟨name, value⟩ := member
      rw [memberChars, ih, List.map_cons]
      rfl

/-- An object with its names in order is written as it stands. -/
theorem chars_object {members : List (String × Json)}
    (ascending : (members.map Prod.fst).Pairwise (· < ·))
    : chars (.object members) = '\x7b' :: (separate (members.map memberText) ++ ['\x7d']) := by
  have names : (memberChars members).map Prod.fst = members.map Prod.fst := by
    rw [memberChars_eq, List.map_map]
    rfl
  have texts : (memberChars members).map Prod.snd = members.map memberText := by
    rw [memberChars_eq, List.map_map]
    rfl
  rw [chars, NameMap.entries_ofList_of_ascending (by rw [names]; exact ascending), texts]

/-- An array is written as its items between brackets. -/
theorem chars_array (items : List Json)
    : chars (.array items) = '[' :: (separate (items.map chars) ++ [']']) := by
  rw [chars, itemChars_eq]

-----------------------------------------------------------------------------------------
-- What values are written as
-----------------------------------------------------------------------------------------

/-- The value is written as these tokens, which are read as this tree, which stands for the value,
whatever is open around it and comes behind it.
-/
structure WrittenAs (depth : Nat) (value : Json) (tokens : List Token) (tree : Written)
    : Prop where
  taken
    : ∀ rest, EndsNumber rest
      → tokens? (encode value.chars ++ rest) = (tokens? rest).map (tokens ++ ·)
  read : ∀ around rest, readValue? around (tokens ++ rest) = readAfter? tree around rest
  starts : ∃ first more, tokens = first :: more ∧ first ≠ .closeArray
  meant : tree.value? depth = some value

/-- The value is written as something that stands for it. -/
def Readable (depth : Nat) (value : Json) : Prop :=
  ∃ tokens tree, WrittenAs depth value tokens tree

section Leaves

variable {depth : Nat}

/-- The null is written as something that stands for it. -/
theorem readable_null : Readable depth .null :=
  ⟨[.null], .null, {
    taken := fun rest _ => tokens?_null rest
    read := fun around rest => by rw [List.singleton_append, readValue?]
    starts := ⟨_, _, rfl, nofun⟩
    meant := by rw [Written.value?] }⟩

/-- A truth value is written as something that stands for it. -/
theorem readable_bool (value : Bool) : Readable depth (.bool value) :=
  ⟨[.bool value], .bool value, {
    taken := fun rest _ => tokens?_bool value rest
    read := fun around rest => by rw [List.singleton_append, readValue?]
    starts := ⟨_, _, rfl, nofun⟩
    meant := by rw [Written.value?] }⟩

/-- A whole number in range is written as something that stands for it. -/
theorem readable_whole {value : Int} (inRange : InRange value)
    : Readable depth (.number (.whole value)) :=
  ⟨[.number (numeral value)], .number (numeral value), {
    taken := fun rest ends => by
      rw [chars]
      exact tokens?_whole value ends
    read := fun around rest => by rw [List.singleton_append, readValue?]
    starts := ⟨_, _, rfl, nofun⟩
    meant := by
      rw [Written.value?, number?_numeral inRange]
      rfl }⟩

/-- A string is written as something that stands for it. -/
theorem writtenAs_string (value : String)
    : WrittenAs depth (.string value) [.string (stringMarks value.toList)]
        (.string (stringMarks value.toList)) where
  taken := by
    intro rest _
    rw [chars]
    exact tokens?_string value rest
  read := fun around rest => by rw [List.singleton_append, readValue?]
  starts := ⟨_, _, rfl, nofun⟩
  meant := by
    rw [Written.value?, string?_stringMarks]
    rfl

end Leaves

-----------------------------------------------------------------------------------------
-- Arrays
-----------------------------------------------------------------------------------------

/-- A number ends before a punctuation mark. -/
theorem endsNumber_of_punctuation {b : UInt8} {token : Token} (mark : (b, token) ∈ punctuation)
    (rest : List UInt8)
    : EndsNumber (b :: rest) := by
  rintro _ ⟨⟩
  simp only [punctuation, List.mem_cons, Prod.mk.injEq, List.not_mem_nil, or_false] at mark
  rcases mark with ⟨rfl, -⟩ | ⟨rfl, -⟩ | ⟨rfl, -⟩ | ⟨rfl, -⟩ | ⟨rfl, -⟩ | ⟨rfl, -⟩ <;> decide

/-- A comma separates the first of several texts from the others. -/
theorem encode_separate_cons (text next : List Char) (rest : List (List Char))
    : encode (separate (text :: next :: rest))
      = encode text ++ 0x2c :: encode (separate (next :: rest)) := by
  have comma : String.utf8EncodeChar ',' = [0x2c] := rfl
  rw [separate, Text.Utf8.encode_append, Text.Utf8.encode_cons, comma]
  · rfl
  · nofun

/-- The items of an array are written as these tokens and read as these trees. -/
structure ItemsWrittenAs (depth : Nat) (items : List Json) (tokens : List Token)
    (trees : List Written)
    : Prop where
  taken
    : ∀ rest, EndsNumber rest
      → tokens? (encode (separate (items.map chars)) ++ rest) = (tokens? rest).map (tokens ++ ·)
  read
    : ∀ before around rest,
        readValue? (.array before :: around) (tokens ++ .closeArray :: rest)
        = readAfter? (.array (before.reverse ++ trees)) around rest
  starts : ∃ first more, tokens = first :: more ∧ first ≠ .closeArray
  meant : Written.items? depth trees = some items

section Arrays

variable {depth : Nat} {items : List Json}

/-- One item of an array is written as it is by itself. -/
theorem WrittenAs.item {item : Json} {tokens : List Token} {tree : Written}
    (written : WrittenAs depth item tokens tree)
    : ItemsWrittenAs depth [item] tokens [tree] where
  taken := written.taken
  read := by
    intro before around rest
    rw [written.read, readAfter?, List.reverse_cons]
  starts := written.starts
  meant := by
    rw [Written.items?, written.meant, Written.items?]
    rfl

/-- A comma leads from an item to the others. -/
theorem ItemsWrittenAs.cons {item next : Json} {tokens more : List Token} {tree : Written}
    {trees : List Written} (written : WrittenAs depth item tokens tree)
    (others : ItemsWrittenAs depth (next :: items) more trees)
    : ItemsWrittenAs depth (item :: next :: items) (tokens ++ .comma :: more) (tree :: trees) where
  taken := by
    intro rest ends
    have comma : (0x2c, Token.comma) ∈ punctuation := by decide
    have text : encode (separate ((item :: next :: items).map chars)) ++ rest
        = encode item.chars ++ 0x2c :: (encode (separate ((next :: items).map chars)) ++ rest) := by
      rw [List.map_cons, List.map_cons, encode_separate_cons, List.append_assoc]
      rfl
    rw [text, written.taken _ (endsNumber_of_punctuation comma _), tokens?_punctuation comma,
      others.taken rest ends]
    simp [Function.comp_def]
  read := by
    intro before around rest
    rw [List.append_assoc, List.cons_append, written.read, readAfter?, others.read]
    simp
  starts := by
    obtain ⟨first, later, same, other⟩ := written.starts
    exact ⟨first, _, by rw [same]; rfl, other⟩
  meant := by
    rw [Written.items?, written.meant, others.meant]
    rfl

/-- Items that can be read are read one after the other, by induction on the items. -/
theorem exists_itemsWrittenAs {first : Json}
    (each : ∀ item ∈ first :: items, Readable depth item)
    : ∃ tokens trees, ItemsWrittenAs depth (first :: items) tokens trees := by
  induction items generalizing first with
  | nil =>
      obtain ⟨tokens, tree, written⟩ := each first List.mem_cons_self
      exact ⟨tokens, [tree], written.item⟩
  | cons next items ih =>
      obtain ⟨tokens, tree, written⟩ := each first List.mem_cons_self
      obtain ⟨more, trees, others⟩ :=
        ih fun item member => each item (List.mem_cons_of_mem first member)
      exact ⟨_, _, others.cons written⟩

/-- An array is written as something that stands for it if its items are. -/
theorem readable_array (each : ∀ item ∈ items, Readable depth item)
    : Readable (depth + 1) (.array items) := by
  have opening : (0x5b, Token.openArray) ∈ punctuation := by decide
  have close : (0x5d, Token.closeArray) ∈ punctuation := by decide
  have text : ∀ rest, encode (chars (.array items)) ++ rest
      = 0x5b :: (encode (separate (items.map chars)) ++ 0x5d :: rest) := by
    intro rest
    have first : String.utf8EncodeChar '[' = [0x5b] := rfl
    have last : encode [']'] = [0x5d] := rfl
    rw [chars_array, Text.Utf8.encode_cons, first, Text.Utf8.encode_append, last]
    simp
  cases items with
  | nil =>
      refine ⟨[.openArray, .closeArray], .array [], ?_, ?_, ⟨_, _, rfl, nofun⟩, ?_⟩
      · intro rest _
        rw [text, tokens?_punctuation opening]
        exact (congrArg _ (tokens?_punctuation close rest)).trans (Option.map_map ..)
      · intro around rest
        rw [List.cons_append, List.singleton_append, readValue?]
      · rw [Written.value?, Written.items?]
        rfl
  | cons first items =>
      obtain ⟨tokens, trees, written⟩ := exists_itemsWrittenAs each
      refine ⟨.openArray :: tokens ++ [.closeArray], .array trees, ?_, ?_, ⟨_, _, rfl, nofun⟩, ?_⟩
      · intro rest _
        rw [text, tokens?_punctuation opening,
          written.taken _ (endsNumber_of_punctuation close rest), tokens?_punctuation close]
        simp [Function.comp_def]
      · intro around rest
        obtain ⟨start, more, same, other⟩ := written.starts
        have read := written.read [] around rest
        rw [List.append_assoc, List.cons_append, List.singleton_append, readValue?, read]
        · rfl
        · rw [same]
          exact fun _ empty => other (List.cons.inj empty).1
      · rw [Written.value?, written.meant]
        rfl

end Arrays

-----------------------------------------------------------------------------------------
-- Objects
-----------------------------------------------------------------------------------------

/-- The members of an object are written as these tokens behind the first name and its colon, and
read as these trees.
-/
structure MembersWrittenAs (depth : Nat) (name : String) (value : Json)
    (members : List (String × Json)) (tokens : List Token) (trees : List (List Mark × Written))
    : Prop where
  taken
    : ∀ rest, EndsNumber rest
      → tokens? (encode (separate (((name, value) :: members).map memberText)) ++ rest)
        = (tokens? rest).map
          (.string (stringMarks name.toList) :: .colon :: tokens ++ ·)
  read
    : ∀ before around rest,
        readValue? (.object before (stringMarks name.toList) :: around)
          (tokens ++ .closeObject :: rest)
        = readAfter? (.object (before.reverse ++ trees)) around rest
  meant : Written.members? depth trees = some ((name, value) :: members)

section Objects

variable {depth : Nat} {name : String} {value : Json} {members : List (String × Json)}
  {tokens : List Token} {tree : Written}

/-- A member is written as its name, a colon and its value. -/
theorem WrittenAs.memberText (written : WrittenAs depth value tokens tree) (name : String)
    {rest : List UInt8} (ends : EndsNumber rest)
    : tokens? (encode (Json.memberText (name, value)) ++ rest)
      = (tokens? rest).map (.string (stringMarks name.toList) :: .colon :: tokens ++ ·) := by
  have colon : (0x3a, Token.colon) ∈ punctuation := by decide
  have text : encode (Json.memberText (name, value)) ++ rest
      = encode (renderString name) ++ 0x3a :: (encode value.chars ++ rest) := by
    have byte : String.utf8EncodeChar ':' = [0x3a] := rfl
    rw [Json.memberText, Text.Utf8.encode_append, Text.Utf8.encode_cons, byte, List.append_assoc]
    rfl
  rw [text, tokens?_string, tokens?_punctuation colon, written.taken rest ends]
  simp [Function.comp_def]

/-- One member of an object is written as its name, a colon and its value. -/
theorem WrittenAs.member (written : WrittenAs depth value tokens tree) (name : String)
    : MembersWrittenAs depth name value [] tokens [(stringMarks name.toList, tree)] where
  taken := fun rest ends => written.memberText name ends
  read := by
    intro before around rest
    rw [written.read, readAfter?, List.reverse_cons]
  meant := by
    rw [Written.members?, string?_stringMarks, written.meant, Written.members?]
    rfl

/-- A comma leads from a member to the others. -/
theorem MembersWrittenAs.cons {next : String} {second : Json} {more : List Token}
    {trees : List (List Mark × Written)} (written : WrittenAs depth value tokens tree)
    (others : MembersWrittenAs depth next second members more trees)
    : MembersWrittenAs depth name value ((next, second) :: members)
        (tokens ++ .comma :: .string (stringMarks next.toList) :: .colon :: more)
        ((stringMarks name.toList, tree) :: trees) where
  taken := by
    intro rest ends
    have comma : (0x2c, Token.comma) ∈ punctuation := by decide
    have text : encode (separate (((name, value) :: (next, second) :: members).map memberText))
          ++ rest
        = encode (Json.memberText (name, value))
          ++ 0x2c :: (encode (separate (((next, second) :: members).map memberText)) ++ rest) := by
      rw [List.map_cons, List.map_cons, encode_separate_cons, List.append_assoc]
      rfl
    rw [text, written.memberText name (endsNumber_of_punctuation comma _),
      tokens?_punctuation comma, others.taken rest ends]
    simp [Function.comp_def]
  read := by
    intro before around rest
    rw [List.append_assoc, List.cons_append, written.read]
    rw [List.cons_append, List.cons_append, readAfter?, others.read]
    simp
  meant := by
    rw [Written.members?, string?_stringMarks, written.meant, others.meant]
    rfl

/-- Members that can be read are read one after the other, by induction on the members. -/
theorem exists_membersWrittenAs
    (each : ∀ member ∈ (name, value) :: members, Readable depth member.2)
    : ∃ tokens trees, MembersWrittenAs depth name value members tokens trees := by
  induction members generalizing name value with
  | nil =>
      obtain ⟨tokens, tree, written⟩ := each _ List.mem_cons_self
      exact ⟨tokens, _, written.member name⟩
  | cons next members ih =>
      obtain ⟨tokens, tree, written⟩ := each _ List.mem_cons_self
      obtain ⟨more, trees, others⟩ :=
        ih fun member inside => each member (List.mem_cons_of_mem _ inside)
      exact ⟨_, _, MembersWrittenAs.cons written others⟩

/-- An object is written as something that stands for it if the values of its members are and its
names are in order.
-/
theorem readable_object (ascending : (members.map Prod.fst).Pairwise (· < ·))
    (each : ∀ member ∈ members, Readable depth member.2)
    : Readable (depth + 1) (.object members) := by
  have opening : (0x7b, Token.openObject) ∈ punctuation := by decide
  have close : (0x7d, Token.closeObject) ∈ punctuation := by decide
  have text : ∀ rest, encode (chars (.object members)) ++ rest
      = 0x7b :: (encode (separate (members.map memberText)) ++ 0x7d :: rest) := by
    intro rest
    have first : String.utf8EncodeChar '{' = [0x7b] := rfl
    have last : encode ['}'] = [0x7d] := rfl
    rw [chars_object ascending, Text.Utf8.encode_cons, first, Text.Utf8.encode_append, last]
    simp
  cases members with
  | nil =>
      refine ⟨[.openObject, .closeObject], .object [], ?_, ?_, ⟨_, _, rfl, nofun⟩, ?_⟩
      · intro rest _
        rw [text, tokens?_punctuation opening]
        exact (congrArg _ (tokens?_punctuation close rest)).trans (Option.map_map ..)
      · intro around rest
        rw [List.cons_append, List.singleton_append, readValue?]
      · rw [Written.value?, Written.members?]
        rfl
  | cons member members =>
      obtain ⟨name, value⟩ := member
      obtain ⟨tokens, trees, written⟩ := exists_membersWrittenAs each
      refine ⟨.openObject :: .string (stringMarks name.toList) :: .colon :: tokens
        ++ [.closeObject], .object trees, ?_, ?_, ⟨_, _, rfl, nofun⟩, ?_⟩
      · intro rest _
        rw [text, tokens?_punctuation opening,
          written.taken _ (endsNumber_of_punctuation close rest), tokens?_punctuation close]
        simp [Function.comp_def]
      · intro around rest
        have read := written.read [] around rest
        rw [List.append_assoc, List.cons_append, List.cons_append, List.cons_append,
          List.singleton_append, readValue?, read]
        rfl
      · rw [Written.value?, written.meant]
        rfl

end Objects

/-- Every tame value can be read back, by induction on how it is built. -/
theorem Tame.readable {depth : Nat} {value : Json} (tame : Tame depth value)
    : Readable depth value := by
  induction tame with
  | null => exact readable_null
  | bool value => exact readable_bool value
  | whole inRange => exact readable_whole inRange
  | string value => exact ⟨_, _, writtenAs_string value⟩
  | array _ ih => exact readable_array ih
  | object ascending _ ih => exact readable_object ascending ih

/-- A tame value is what its text stands for. -/
theorem Tame.parse?_render {value : Json} (tame : Tame maxDepth value)
    : parse? (Text.Utf8.bytes value.render) = some value := by
  obtain ⟨tokens, tree, written⟩ := tame.readable
  have taken := written.taken [] nofun
  have read := written.read [] []
  rw [List.append_nil, tokens?_nil] at taken
  rw [List.append_nil] at read
  simp [parse?, Written.read?, render, Text.Utf8.bytes_eq_encode, taken, read, readAfter?,
    written.meant]

-----------------------------------------------------------------------------------------
-- Texts of one line
-----------------------------------------------------------------------------------------

/-- The first sixteen digits are no line feeds. -/
theorem digitChar_ne_feed : ∀ d < 16, Nat.digitChar d ≠ '\n' := by
  decide

/-- The spelling of a character has no line feed. -/
theorem feed_not_mem_spell (c : Char) : '\n' ∉ spell c := by
  unfold spell
  split
  iterate 7 decide
  next feed _ _ _ _ =>
    split
    · next control =>
        simp only [List.mem_cons, List.not_mem_nil, or_false, not_or]
        exact ⟨by decide, by decide, by decide, by decide,
          (digitChar_ne_feed _ (by omega)).symm, (digitChar_ne_feed _ (by omega)).symm⟩
    · exact fun member => feed (List.mem_singleton.mp member).symm

/-- A string is written without a line feed. -/
theorem feed_not_mem_renderString (value : String) : '\n' ∉ renderString value := by
  intro member
  rw [renderString, List.mem_cons, List.mem_append, List.mem_flatMap, List.mem_singleton] at member
  rcases member with quote | ⟨c, -, inside⟩ | quote
  · cases quote
  · exact feed_not_mem_spell c inside
  · cases quote

/-- Texts without line feeds are separated without one, by induction on the texts. -/
theorem feed_not_mem_separate {texts : List (List Char)} (each : ∀ text ∈ texts, '\n' ∉ text)
    : '\n' ∉ separate texts := by
  fun_induction separate texts with
  | case1 => exact List.not_mem_nil
  | case2 text => exact each text List.mem_cons_self
  | case3 text rest _ ih =>
      rw [List.mem_append, List.mem_cons, not_or, not_or]
      exact ⟨each text List.mem_cons_self, by decide,
        ih fun other member => each other (List.mem_cons_of_mem text member)⟩

/-- Members whose values are written without line feeds are written without one. -/
theorem feed_not_mem_members {members : List (String × Json)}
    (each : ∀ member ∈ members, '\n' ∉ member.2.chars)
    : '\n' ∉ separate (members.map memberText) := by
  apply feed_not_mem_separate
  intro text present
  obtain ⟨member, inside, rfl⟩ := List.mem_map.mp present
  rw [memberText, List.mem_append, List.mem_cons, not_or, not_or]
  exact ⟨feed_not_mem_renderString member.1, by decide, each member inside⟩

/-- The text of a value is one line. -/
theorem Tame.unbroken {depth : Nat} {value : Json} (tame : Tame depth value)
    : '\n' ∉ value.chars := by
  induction tame with
  | null => decide
  | bool value => cases value <;> decide
  | @whole _ value _ =>
      rw [chars, render_whole, List.mem_append, not_or]
      refine ⟨?_, Text.Decimal.not_mem_toDigits (by decide) _⟩
      split <;> decide
  | string value =>
      rw [chars]
      exact feed_not_mem_renderString value
  | @array _ items _ ih =>
      have inside : '\n' ∉ separate (items.map chars) := by
        apply feed_not_mem_separate
        intro text member
        obtain ⟨item, present, rfl⟩ := List.mem_map.mp member
        exact ih item present
      rw [chars_array]
      simp [inside]
  | @object _ members ascending _ ih =>
      rw [chars_object ascending]
      simp [feed_not_mem_members ih]

end SourceView.Json
