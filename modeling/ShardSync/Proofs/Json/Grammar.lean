import Mathlib.Data.List.DropRight
import ShardSync.Json.Parser

/-!
# Objects of texts in the grammar

The part of the grammar of JSON that is about objects whose values are texts: how a character
is spelled between quotes, how a text is quoted, and how members stand between braces, with
blanks wherever the grammar allows them. Whatever it derives is read, and read as what it was
derived for. So no text stands for two objects.
-/

set_option autoImplicit false

namespace ShardSync.Json

/-- The letters that stand behind a backslash for one character. -/
def escapes : List (Char × Char) :=
  [('"', '"'), ('\\', '\\'), ('/', '/'), ('b', '\x08'), ('f', '\x0c'), ('n', '\n'), ('r', '\r'),
    ('t', '\t')]

/-- A symbol that may stand for itself between quotes. -/
structure IsPlain (symbol : Char) : Prop where
  visible : 0x20 ≤ symbol.toNat
  unquoted : symbol ≠ '"'
  unescaped : symbol ≠ '\\'

/-- The ways to spell a character between quotes. -/
inductive Spells : List Char → Char → Prop where
  | plain {symbol : Char} (plain : IsPlain symbol) : Spells [symbol] symbol
  | escape {letter symbol : Char} (known : (letter, symbol) ∈ escapes) :
      Spells ['\\', letter] symbol
  /-- A code unit in four hexadecimal digits, outside the range of surrogates. -/
  | unit {a b c d : Char} {unit : Nat} (read : Text.Hex.parse? [a, b, c, d] = some unit)
      (scalar : unit < 0xD800 ∨ 0xE000 ≤ unit) :
      Spells ['\\', 'u', a, b, c, d] (Char.ofNat unit)
  /-- A pair of surrogates. -/
  | pair {a b c d e f g h : Char} {high low : Nat}
      (readHigh : Text.Hex.parse? [a, b, c, d] = some high)
      (isHigh : 0xD800 ≤ high ∧ high < 0xDC00)
      (readLow : Text.Hex.parse? [e, f, g, h] = some low)
      (isLow : 0xDC00 ≤ low ∧ low < 0xE000) :
      Spells ['\\', 'u', a, b, c, d, '\\', 'u', e, f, g, h]
        (Char.ofNat (0x10000 + (high - 0xD800) * 0x400 + (low - 0xDC00)))

/-- What stands between quotes, character by character. -/
inductive Spelling : List Char → List Char → Prop where
  | nil : Spelling [] []
  | cons {symbols rest : List Char} {symbol : Char} {others : List Char}
      (spells : Spells symbols symbol) (spelling : Spelling rest others) :
      Spelling (symbols ++ rest) (symbol :: others)

/-- A text between its quotes. -/
inductive Quotes : List Char → String → Prop where
  | intro {inner : List Char} {text : String} (spelling : Spelling inner text.toList) :
      Quotes ('"' :: inner ++ ['"']) text

def Blanks (symbols : List Char) : Prop := ∀ symbol ∈ symbols, isBlank symbol = true

/-- A member of an object: a name, a colon and a text. -/
inductive Member : List Char → String × String → Prop where
  | intro {before name between behind text after : List Char} {member : String × String}
      (first : Blanks before) (named : Quotes name member.1) (second : Blanks between)
      (third : Blanks behind) (valued : Quotes text member.2) (fourth : Blanks after) :
      Member (before ++ name ++ between ++ ':' :: behind ++ text ++ after) member

/-- The members of an object, with commas between them. -/
inductive Members : List Char → List (String × String) → Prop where
  | single {symbols : List Char} {member : String × String} (only : Member symbols member) :
      Members symbols [member]
  | cons {symbols rest : List Char} {member : String × String} {members : List (String × String)}
      (first : Member symbols member) (more : Members rest members) :
      Members (symbols ++ ',' :: rest) (member :: members)

/-- A text that is one object, whose members are texts. -/
inductive TextObject : List Char → List (String × String) → Prop where
  | empty {before inner after : List Char} (first : Blanks before) (second : Blanks inner)
      (third : Blanks after) : TextObject (before ++ '\x7b' :: inner ++ '\x7d' :: after) []
  | filled {before inner after : List Char} {members : List (String × String)}
      (first : Blanks before) (listed : Members inner members) (second : Blanks after) :
      TextObject (before ++ '\x7b' :: inner ++ '\x7d' :: after) members

/-! ## Reading what is between quotes -/

theorem isPlain_of_value? {digit : Char} {value : Nat}
    (read : Text.Hex.value? digit = some value) : IsPlain digit := by
  refine ⟨?_, ?_, ?_⟩
  · unfold Text.Hex.value? at read
    grind
  · rintro rfl
    simp [Text.Hex.value?] at read
  · rintro rfl
    simp [Text.Hex.value?] at read

/-- Hexadecimal digits are plain. -/
theorem isPlain_of_foldlM {digits : List Char} {total value : Nat}
    (read : digits.foldlM (fun total digit => (Text.Hex.value? digit).map (total * 16 + ·)) total =
      some value) : ∀ digit ∈ digits, IsPlain digit := by
  induction digits generalizing total with
  | nil => exact List.forall_mem_nil _
  | cons digit digits ih =>
      rw [List.foldlM_cons, Option.bind_eq_bind, Option.bind_eq_some_iff] at read
      obtain ⟨next, first, read⟩ := read
      obtain ⟨known, found, _⟩ := Option.map_eq_some_iff.mp first
      exact List.forall_mem_cons.mpr ⟨isPlain_of_value? found, ih read⟩

theorem splitQuoted?_append {symbols : List Char} (plain : ∀ symbol ∈ symbols, IsPlain symbol)
    (collected rest : List Char) :
    splitQuoted? collected (symbols ++ rest) = splitQuoted? (symbols.reverse ++ collected) rest := by
  induction symbols generalizing collected with
  | nil => rfl
  | cons symbol symbols ih =>
      obtain ⟨plain, later⟩ := List.forall_mem_cons.mp plain
      have step : splitQuoted? collected (symbol :: (symbols ++ rest)) =
          splitQuoted? (symbol :: collected) (symbols ++ rest) := by
        rw [splitQuoted?]
        · exact plain.unquoted
        · exact fun _ _ same _ => plain.unescaped same
      rw [List.cons_append, step, ih later, List.reverse_cons, List.append_assoc]
      rfl

theorem Spells.splitQuoted? {symbols : List Char} {symbol : Char} (spells : Spells symbols symbol)
    (collected rest : List Char) :
    Json.splitQuoted? collected (symbols ++ rest) =
      Json.splitQuoted? (symbols.reverse ++ collected) rest := by
  cases spells with
  | plain plain => exact splitQuoted?_append (List.forall_mem_singleton.mpr plain) _ _
  | escape known => rfl
  | unit read scalar =>
      exact splitQuoted?_append (isPlain_of_foldlM read) ('u' :: '\\' :: collected) rest
  | pair readHigh isHigh readLow isLow =>
      refine (splitQuoted?_append (isPlain_of_foldlM readHigh) ('u' :: '\\' :: collected) _).trans
        ?_
      exact splitQuoted?_append (isPlain_of_foldlM readLow) _ rest

theorem Spells.visible {symbols : List Char} {symbol : Char} (spells : Spells symbols symbol) :
    ∀ other ∈ symbols, 0x20 ≤ other.toNat := by
  cases spells with
  | plain plain => exact List.forall_mem_singleton.mpr plain.visible
  | escape known =>
      have letters : ∀ entry ∈ escapes, 0x20 ≤ entry.1.toNat := by simp [escapes]
      simpa using letters _ known
  | unit read scalar =>
      have digits := fun digit member => (isPlain_of_foldlM read digit member).visible
      simpa using digits
  | pair readHigh isHigh readLow isLow =>
      have high := fun digit member => (isPlain_of_foldlM readHigh digit member).visible
      have low := fun digit member => (isPlain_of_foldlM readLow digit member).visible
      simp_all

theorem Spelling.visible {inner characters : List Char} (spelling : Spelling inner characters) :
    ∀ symbol ∈ inner, 0x20 ≤ symbol.toNat := by
  induction spelling with
  | nil => exact List.forall_mem_nil _
  | cons spells spelling ih => exact List.forall_mem_append.mpr ⟨spells.visible, ih⟩

/-- No control character stands in a quoted text, however it is spelled. -/
theorem Quotes.visible {symbols : List Char} {text : String} (quotes : Quotes symbols text) :
    ∀ symbol ∈ symbols, 0x20 ≤ symbol.toNat := by
  obtain ⟨spelling⟩ := quotes
  have quote : 0x20 ≤ '"'.toNat := by decide
  rw [List.cons_append]
  exact List.forall_mem_cons.mpr
    ⟨quote, List.forall_mem_append.mpr ⟨spelling.visible, List.forall_mem_singleton.mpr quote⟩⟩

theorem Spelling.splitQuoted? {inner characters : List Char} (spelling : Spelling inner characters)
    (collected rest : List Char) :
    Json.splitQuoted? collected (inner ++ '"' :: rest) =
      some (collected.reverse ++ inner, rest) := by
  induction spelling generalizing collected with
  | nil => simp [Json.splitQuoted?]
  | cons spells spelling ih => simp [spells.splitQuoted?, ih]

theorem readUnit?_eq {a b c d : Char} {unit : Nat}
    (read : Text.Hex.parse? [a, b, c, d] = some unit) (rest : List Char) :
    readUnit? (a :: b :: c :: d :: rest) = some (unit, rest) := by
  rw [readUnit?, read]
  rfl

/-- Behind a backslash, what is left of a spelling is read as the character. -/
theorem Spells.readEscape? {symbols : List Char} {symbol : Char}
    (spells : Spells ('\\' :: symbols) symbol) (rest : List Char) :
    Json.readEscape? (symbols ++ rest) = some (symbol, rest) := by
  cases spells with
  | plain plain => exact absurd rfl plain.unescaped
  | escape known =>
      simp only [escapes, List.mem_cons, List.not_mem_nil, or_false, Prod.mk.injEq] at known
      rcases known with ⟨rfl, rfl⟩ | ⟨rfl, rfl⟩ | ⟨rfl, rfl⟩ | ⟨rfl, rfl⟩ | ⟨rfl, rfl⟩ |
        ⟨rfl, rfl⟩ | ⟨rfl, rfl⟩ | ⟨rfl, rfl⟩ <;> rfl
  | @unit a b c d unit read scalar =>
      change readEscapedUnit? (a :: b :: c :: d :: rest) = _
      simp only [readEscapedUnit?, readUnit?_eq read, Option.bind_eq_bind, Option.bind_some]
      rw [if_neg (by omega), if_neg (by omega)]
      rfl
  | @pair a b c d e f g h high low readHigh isHigh readLow isLow =>
      change readEscapedUnit? (a :: b :: c :: d :: '\\' :: 'u' :: e :: f :: g :: h :: rest) = _
      simp only [readEscapedUnit?, readUnit?_eq readHigh, readUnit?_eq readLow,
        Option.bind_eq_bind, Option.bind_some]
      rw [if_neg (by omega), if_pos isHigh, if_pos isLow]
      rfl

theorem Spells.unescape? {symbols : List Char} {symbol : Char} (spells : Spells symbols symbol)
    (fuel : Nat) (collected rest : List Char) :
    Json.unescape? (fuel + 1) collected (symbols ++ rest) =
      Json.unescape? fuel (symbol :: collected) rest := by
  have hidden {others : List Char} (spells : Spells ('\\' :: others) symbol) :
      Json.unescape? (fuel + 1) collected ('\\' :: others ++ rest) =
        Json.unescape? fuel (symbol :: collected) rest := by
    rw [List.cons_append, Json.unescape?, if_pos rfl, spells.readEscape?]
  cases spells with
  | plain plain =>
      rw [List.singleton_append, Json.unescape?, if_neg plain.unescaped,
        if_neg (Nat.not_lt.mpr plain.visible)]
  | escape known => exact hidden (.escape known)
  | unit read scalar => exact hidden (.unit read scalar)
  | pair readHigh isHigh readLow isLow => exact hidden (.pair readHigh isHigh readLow isLow)

theorem Spells.length_pos {symbols : List Char} {symbol : Char} (spells : Spells symbols symbol) :
    0 < symbols.length := by
  cases spells <;> exact Nat.zero_lt_succ _

/-- As many steps as there are symbols are enough to read a spelling. -/
theorem Spelling.unescape? {inner characters : List Char} (spelling : Spelling inner characters)
    {fuel : Nat} (enough : inner.length ≤ fuel) (collected : List Char) :
    Json.unescape? fuel collected inner = some (collected.reverse ++ characters) := by
  induction spelling generalizing fuel collected with
  | nil => rw [Json.unescape?, List.append_nil]
  | @cons symbols rest symbol others spells spelling ih =>
      rw [List.length_append] at enough
      have some := spells.length_pos
      obtain ⟨fuel, rfl⟩ := Nat.exists_eq_add_one_of_ne_zero (show fuel ≠ 0 by omega)
      rw [spells.unescape?, ih (by omega), List.reverse_cons, List.append_assoc]
      rfl

/-- A quoted text is read as the text, in front of whatever follows. -/
theorem Quotes.readQuoted? {symbols : List Char} {text : String} (quotes : Quotes symbols text)
    (rest : List Char) :
    ∃ inner, symbols ++ rest = '"' :: inner ∧ Json.readQuoted? inner = some (text, rest) := by
  obtain @⟨inner, _, spelling⟩ := quotes
  refine ⟨inner ++ '"' :: rest, by simp, ?_⟩
  rw [Json.readQuoted?, spelling.splitQuoted?]
  simp only [List.reverse_nil, List.nil_append, Option.bind_eq_bind, Option.bind_some,
    spelling.unescape? (Nat.le_refl _)]
  rw [String.ofList_toList]
  rfl

/-! ## Reading members -/

theorem blanks_nil : Blanks [] := List.forall_mem_nil _

theorem Blanks.skipBlanks {symbols : List Char} (blanks : Blanks symbols) {symbol : Char}
    (solid : isBlank symbol = false) (rest : List Char) :
    Json.skipBlanks (symbols ++ symbol :: rest) = symbol :: rest := by
  rw [Json.skipBlanks, List.dropWhile_append_of_pos blanks, List.dropWhile_cons_of_neg]
  simp [solid]

theorem Quotes.readValue? {symbols : List Char} {text : String} (quotes : Quotes symbols text)
    {before : List Char} (blanks : Blanks before) (fuel : Nat) (rest : List Char) :
    Json.readValue? (fuel + 1) (before ++ symbols ++ rest) = some (.text text, rest) := by
  obtain ⟨inner, same, read⟩ := quotes.readQuoted? rest
  rw [List.append_assoc, same, Json.readValue?, blanks.skipBlanks rfl]
  change (Json.readQuoted? inner).map (fun read => (Json.text read.1, read.2)) = _
  rw [read]
  rfl

/-- An object of texts as a value. -/
def ofTexts (members : List (String × String)) : Json :=
  .object (members.map fun member => (member.1, .text member.2))

/-- What the parts of a member are read as, with anything behind it. -/
theorem Member.exists_parts {symbols : List Char} {member : String × String}
    (stands : Member symbols member) :
    ∃ after, Blanks after ∧ ∀ fuel ahead, ∃ inner between behind,
      Json.skipBlanks (symbols ++ ahead) = '"' :: inner ∧
        Json.readQuoted? inner = some (member.1, between) ∧
        Json.skipBlanks between = ':' :: behind ∧
        Json.readValue? (fuel + 1) behind = some (.text member.2, after ++ ahead) := by
  obtain @⟨before, name, between, behind, text, after, _, first, named, second, third, valued,
    fourth⟩ := stands
  refine ⟨after, fourth, fun fuel ahead => ?_⟩
  obtain ⟨inner, opened, read⟩ :=
    named.readQuoted? (between ++ ':' :: (behind ++ text ++ (after ++ ahead)))
  have split : before ++ name ++ between ++ ':' :: behind ++ text ++ after ++ ahead =
      before ++ '"' :: inner := by
    rw [← opened]
    simp
  refine ⟨inner, _, _, ?_, read, second.skipBlanks rfl _, valued.readValue? third ..⟩
  rw [split, first.skipBlanks rfl]

/-- A member is read in front of a comma and of a closing brace. -/
theorem Member.readMembers? {symbols : List Char} {member : String × String}
    (stands : Member symbols member) (fuel : Nat) (collected : List (String × Json))
    (rest : List Char) :
    Json.readMembers? (fuel + 2) collected (symbols ++ ',' :: rest) =
        Json.readMembers? (fuel + 1) ((member.1, .text member.2) :: collected) rest ∧
      Json.readMembers? (fuel + 2) collected (symbols ++ '\x7d' :: rest) =
        some (.object ((member.1, .text member.2) :: collected).reverse, rest) := by
  obtain ⟨after, blanks, parts⟩ := stands.exists_parts
  constructor
  · obtain ⟨inner, between, behind, opens, named, colon, valued⟩ := parts fuel (',' :: rest)
    rw [Json.readMembers?, opens]
    simp only [named, colon, valued, blanks.skipBlanks (show isBlank ',' = false from rfl)]
  · obtain ⟨inner, between, behind, opens, named, colon, valued⟩ := parts fuel ('\x7d' :: rest)
    rw [Json.readMembers?, opens]
    simp only [named, colon, valued, blanks.skipBlanks (show isBlank '\x7d' = false from rfl)]

theorem Members.readMembers? {inner : List Char} {members : List (String × String)}
    (listed : Members inner members) {fuel : Nat} (enough : members.length < fuel)
    (collected : List (String × Json)) (rest : List Char) :
    Json.readMembers? fuel collected (inner ++ '\x7d' :: rest) =
      some (.object (collected.reverse ++
        members.map fun member => (member.1, .text member.2)), rest) := by
  induction listed generalizing fuel collected with
  | @single symbols member only =>
      obtain ⟨fuel, rfl⟩ := Nat.exists_eq_add_of_lt enough
      rw [List.length_singleton, show 1 + fuel + 1 = fuel + 2 by omega, (only.readMembers? ..).2,
        List.reverse_cons]
      rfl
  | @cons symbols others member members first more ih =>
      rw [List.length_cons] at enough
      obtain ⟨fuel, rfl⟩ := Nat.exists_eq_add_of_le (show 2 ≤ fuel by omega)
      rw [Nat.add_comm 2, List.append_assoc, List.cons_append, (first.readMembers? ..).1,
        ih (by omega), List.reverse_cons, List.append_assoc]
      rfl

theorem Quotes.exists_cons {symbols : List Char} {text : String} (quotes : Quotes symbols text) :
    ∃ inner, symbols = '"' :: inner := by
  obtain ⟨_⟩ := quotes
  exact ⟨_, rfl⟩

theorem Member.exists_quote {symbols : List Char} {member : String × String}
    (stands : Member symbols member) :
    ∃ before inner, Blanks before ∧ symbols = before ++ '"' :: inner := by
  obtain @⟨before, name, between, behind, text, after, _, first, named, _, _, _, _⟩ := stands
  obtain ⟨inner, rfl⟩ := named.exists_cons
  exact ⟨before, _, first, by simp only [List.append_assoc, List.cons_append]; rfl⟩

theorem Members.exists_quote {inner : List Char} {members : List (String × String)}
    (listed : Members inner members) :
    ∃ before rest, Blanks before ∧ inner = before ++ '"' :: rest := by
  cases listed with
  | single only => exact only.exists_quote
  | cons first more =>
      obtain ⟨before, rest, blanks, rfl⟩ := first.exists_quote
      exact ⟨before, _, blanks, by rw [List.append_assoc]; rfl⟩

/-- Every member takes symbols of its own. -/
theorem Members.length_le {inner : List Char} {members : List (String × String)}
    (listed : Members inner members) : members.length ≤ inner.length := by
  induction listed with
  | single only =>
      obtain ⟨before, rest, _, rfl⟩ := only.exists_quote
      simp
      omega
  | cons first more ih =>
      rw [List.length_append, List.length_cons, List.length_cons]
      omega

theorem readMembers?_skipBlanks (fuel : Nat) (collected : List (String × Json))
    (symbols : List Char) :
    Json.readMembers? fuel collected (Json.skipBlanks symbols) =
      Json.readMembers? fuel collected symbols := by
  cases fuel with
  | zero => rfl
  | succ fuel =>
      have same : Json.skipBlanks (Json.skipBlanks symbols) = Json.skipBlanks symbols :=
        List.dropWhile_idempotent ..
      rw [Json.readMembers?, Json.readMembers?, same]

theorem Blanks.skipBlanks_eq_nil {symbols : List Char} (blanks : Blanks symbols) :
    Json.skipBlanks symbols = [] :=
  List.dropWhile_eq_nil_iff.mpr blanks

/-- An object is read up to its closing brace. -/
theorem TextObject.readValue? {symbols : List Char} {members : List (String × String)}
    (object : TextObject symbols members) {fuel : Nat} (enough : symbols.length ≤ fuel) :
    ∃ after, Blanks after ∧
      Json.readValue? (fuel + 1) symbols = some (ofTexts members, after) := by
  cases object with
  | @empty before inner after first second third =>
      have closes : skipBlanks (inner ++ '\x7d' :: after) = '\x7d' :: after :=
        second.skipBlanks rfl after
      refine ⟨after, third, ?_⟩
      rw [List.append_assoc, List.cons_append, Json.readValue?, first.skipBlanks rfl]
      simp only [closes, ofTexts, List.map_nil]
  | @filled before inner after _ first listed second =>
      refine ⟨after, second, ?_⟩
      obtain ⟨blank, rest, blanks, opened⟩ := listed.exists_quote
      have few := listed.length_le
      simp only [List.length_append, List.length_cons] at enough
      have read := listed.readMembers? (show members.length < fuel by omega) [] after
      rw [← readMembers?_skipBlanks] at read
      have opens : skipBlanks (inner ++ '\x7d' :: after) = '"' :: (rest ++ '\x7d' :: after) := by
        rw [opened, List.append_assoc]
        exact blanks.skipBlanks rfl _
      rw [opens] at read
      rw [List.append_assoc, List.cons_append, Json.readValue?, first.skipBlanks rfl]
      simp only [opens]
      exact read

/-- A text that the grammar derives for an object is read as that object. -/
theorem TextObject.parse? {text : String} {members : List (String × String)}
    (object : TextObject text.toList members) : Json.parse? text = some (ofTexts members) := by
  obtain ⟨after, blanks, read⟩ := object.readValue? (Nat.le_refl _)
  rw [Json.parse?, read]
  dsimp only
  rw [blanks.skipBlanks_eq_nil]
  rfl

theorem ofTexts_inj {members others : List (String × String)} :
    ofTexts members = ofTexts others ↔ members = others := by
  refine ⟨fun same => ?_, congrArg ofTexts⟩
  refine List.map_injective_iff.mpr (fun first second equal => ?_) (Json.object.inj same)
  rw [Prod.mk.injEq, Json.text.injEq] at equal
  exact Prod.ext equal.1 equal.2

/-- A text stands for one object at most. -/
theorem TextObject.unique {text : String} {members others : List (String × String)}
    (object : TextObject text.toList members) (other : TextObject text.toList others) :
    members = others :=
  ofTexts_inj.mp (Option.some.inj (object.parse?.symm.trans other.parse?))

end ShardSync.Json
