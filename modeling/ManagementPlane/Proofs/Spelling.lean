import ManagementPlane.Json.Printer
import ManagementPlane.Json.Tree
import ManagementPlane.Proofs.NumberText

/-!
# What is written is read back

A value is written without blanks or over several lines; both are ways to lay out the same parts, and the reader
passes over the blanks. So the reader finds the same tree in either text.

* `Layout`, `Value.written` : a text with blanks between its parts; `written_tight` and `written_lines` say that
  the two printers are instances;
* `Value.tree` : the tree that a value is written as;
* `Value.isIntegral` : whether all numbers in a value are integers that fit 64 bits;
* `Value.parse?_compact`, `Value.parse?_pretty` : the trees of the two texts;
* `Value.compact_inj` : the text tells the value.
-/

namespace ManagementPlane.Json

open Decimal (Numeral NumberEnds)

/-! ## Strings -/

/-- A character comes back from its escape, as itself or as a unit. -/
theorem exists_piece_escape (c : Char) {cs r : List Char} {ps : List Piece} (h : pieces? cs = some (ps, r)) :
    ∃ p, pieces? (escape c ++ cs) = some (p :: ps, r) ∧ textOf? (p :: ps) = (textOf? ps).map (c :: ·) := by
  by_cases hspecial : c = '"' ∨ c = '\\' ∨ c = '\x08' ∨ c = '\t' ∨ c = '\n' ∨ c = '\x0c' ∨ c = '\r'
  · refine ⟨.char c, ?_, rfl⟩
    rcases hspecial with rfl | rfl | rfl | rfl | rfl | rfl | rfl <;> simp [escape, pieces?, escaped?, h]
  · simp only [not_or] at hspecial
    obtain ⟨hquote, hslash, hb, ht, hn, hf, hr⟩ := hspecial
    by_cases hctl : c.toNat < 0x20
    · -- a control character is written as its number
      have hnumber : ∀ n < 0x20, Text.hexNumber? ['0', '0', hexDigit (n / 16), hexDigit n] = some n := by decide
      have hunit : ¬(0xD800 ≤ c.toNat ∧ c.toNat < 0xDC00) ∧ ¬(0xDC00 ≤ c.toNat ∧ c.toNat < 0xE000) := by omega
      refine ⟨.unit c.toNat, ?_, ?_⟩
      · simp [escape, hquote, hslash, hb, ht, hn, hf, hr, hctl, pieces?, hnumber c.toNat hctl, h]
      · rw [textOf?.eq_def]
        simp only [hunit.1, hunit.2, if_false, Char.ofNat_toNat]
    · refine ⟨.char c, ?_, rfl⟩
      have hescape : escape c = [c] := by
        simp [escape, hquote, hslash, hb, ht, hn, hf, hr, hctl]
      rw [hescape, List.singleton_append, pieces?]
      · simp [hctl, h]
      all_goals simp_all

theorem string?_escape (cs r : List Char) :
    string? (cs.flatMap escape ++ '"' :: r) = some (some (String.ofList cs), r) := by
  have hpieces : ∃ ps, pieces? (cs.flatMap escape ++ '"' :: r) = some (ps, r) ∧ textOf? ps = some cs := by
    induction cs with
    | nil => exact ⟨[], rfl, rfl⟩
    | cons c cs ih =>
      obtain ⟨ps, hread, htext⟩ := ih
      obtain ⟨p, hfirst, hmore⟩ := exists_piece_escape c hread
      refine ⟨p :: ps, ?_, ?_⟩
      · rw [List.flatMap_cons, List.append_assoc, hfirst]
      · rw [hmore, htext, Option.map_some]
  obtain ⟨ps, hread, htext⟩ := hpieces
  simp only [string?, hread, htext, Option.bind_eq_bind, Option.bind_some, Option.map_some]

/-! ## Layouts -/

/-- Where blanks stand between the parts of a text. -/
structure Layout where
  /-- What stands in front of an item, a field or a closing bracket, inside `level` containers. -/
  gap : (level : Nat) → List Char
  /-- What stands behind a colon. -/
  space : List Char
  isBlank_of_mem_gap : ∀ level, ∀ c ∈ gap level, isBlank c = true
  isBlank_of_mem_space : ∀ c ∈ space, isBlank c = true

namespace Layout

/-- No blanks. -/
def tight : Layout := ⟨fun _ => [], [], nofun, nofun⟩

/-- One item or field a line. -/
def lines : Layout where
  gap := Value.newline
  space := [' ']
  isBlank_of_mem_gap level c hc := by
    rcases List.mem_cons.1 hc with rfl | hc
    · rfl
    · rw [List.eq_of_mem_replicate hc]
      rfl
  isBlank_of_mem_space c hc := by
    rw [List.mem_singleton.1 hc]
    rfl

@[simp] theorem gap_tight (level : Nat) : tight.gap level = [] := rfl

@[simp] theorem space_tight : tight.space = [] := rfl

@[simp] theorem gap_lines (level : Nat) : lines.gap level = Value.newline level := rfl

@[simp] theorem space_lines : lines.space = [' '] := rfl

end Layout

namespace Value

mutual

/-- The value in a layout, inside `level` containers. -/
def written (y : Layout) (level : Nat) : Value → List Char
  | array [] => ['[', ']']
  | array (v :: r) => '[' :: (writtenItems y (level + 1) (v :: r) ++ y.gap level ++ [']'])
  | object [] => ['{', '}']
  | object (e :: r) => '{' :: (writtenFields y (level + 1) (e :: r) ++ y.gap level ++ ['}'])
  | v => chars v

def writtenItems (y : Layout) (level : Nat) : List Value → List Char
  | [] => []
  | [v] => y.gap level ++ written y level v
  | v :: r => y.gap level ++ written y level v ++ ',' :: writtenItems y level r

def writtenFields (y : Layout) (level : Nat) : List (String × Value) → List Char
  | [] => []
  | [(k, v)] => y.gap level ++ quoted k ++ ':' :: (y.space ++ written y level v)
  | (k, v) :: r =>
    y.gap level ++ quoted k ++ ':' :: (y.space ++ written y level v ++ ',' :: writtenFields y level r)

end

mutual

theorem written_tight (level : Nat) : ∀ v, written .tight level v = chars v
  | null | bool _ | number _ | string _ | array [] | object [] => rfl
  | array (v :: r) => by simp [written, chars, writtenItems_tight (level + 1) (v :: r)]
  | object (e :: r) => by simp [written, chars, writtenFields_tight (level + 1) (e :: r)]

theorem writtenItems_tight (level : Nat) : ∀ items, writtenItems .tight level items = itemChars items
  | [] => rfl
  | [v] => by simp [writtenItems, itemChars, written_tight level v]
  | v :: w :: r => by
    simp [writtenItems, itemChars, written_tight level v, writtenItems_tight level (w :: r)]

theorem writtenFields_tight (level : Nat) : ∀ fields, writtenFields .tight level fields = fieldChars fields
  | [] => rfl
  | [(k, v)] => by simp [writtenFields, fieldChars, written_tight level v]
  | (k, v) :: e :: r => by
    simp [writtenFields, fieldChars, written_tight level v, writtenFields_tight level (e :: r)]

end

mutual

theorem written_lines (level : Nat) : ∀ v, written .lines level v = prettyChars level v
  | null | bool _ | number _ | string _ | array [] | object [] => rfl
  | array (v :: r) => by simp [written, prettyChars, writtenItems_lines (level + 1) (v :: r)]
  | object (e :: r) => by simp [written, prettyChars, writtenFields_lines (level + 1) (e :: r)]

theorem writtenItems_lines (level : Nat) : ∀ items, writtenItems .lines level items = prettyItems level items
  | [] => rfl
  | [v] => by simp [writtenItems, prettyItems, written_lines level v]
  | v :: w :: r => by
    simp [writtenItems, prettyItems, written_lines level v, writtenItems_lines level (w :: r)]

theorem writtenFields_lines (level : Nat) :
    ∀ fields, writtenFields .lines level fields = prettyFields level fields
  | [] => rfl
  | [(k, v)] => by simp [writtenFields, prettyFields, written_lines level v]
  | (k, v) :: e :: r => by
    simp [writtenFields, prettyFields, written_lines level v, writtenFields_lines level (e :: r)]

end

end Value

/-! ## Trees -/

/-- The numeral that a number is written as. -/
def Number.numeral (n : Number) : Numeral :=
  match Numeral.lex? n.text.toList with
  | some (m, _) => m
  | none => ⟨false, [], none, none⟩

/-- Whether a number is an integer that fits 64 bits, with or without sign. -/
def Number.isIntegral : Number → Bool
  | int n => decide (-2 ^ 63 ≤ n) && decide (n < 2 ^ 64)
  | real _ => false

theorem Number.numeral_spec (x : Number) :
    Spells x x.numeral ∧ x.numeral.WellFormed ∧ x.numeral.chars = x.text.toList := by
  obtain ⟨n, hspells, hn, hchars⟩ := x.exists_spells
  have hread := Numeral.lex?_chars (r := []) hn nofun
  rw [List.append_nil, hchars] at hread
  have heq : x.numeral = n := by simp only [numeral, hread]
  rw [heq]
  exact ⟨hspells, hn, hchars⟩

theorem Number.lex?_text (x : Number) {r : List Char} (hr : NumberEnds r) :
    Numeral.lex? (x.text.toList ++ r) = some (x.numeral, r) := by
  obtain ⟨-, hn, hchars⟩ := x.numeral_spec
  rw [← hchars]
  exact Numeral.lex?_chars hn hr

theorem Number.exists_first_text (x : Number) :
    ∃ c cs, x.text.toList = c :: cs ∧ (c = '-' ∨ c.isDigit = true) := by
  obtain ⟨-, hn, hchars⟩ := x.numeral_spec
  rw [← hchars]
  exact Numeral.exists_first_chars hn

theorem Number.numeral_int (n : Int) : (Number.int n).numeral = .ofInt n := by
  have hspells := (Number.int n).numeral_spec.1
  generalize (Number.int n).numeral = m at hspells
  cases hspells
  rfl

theorem Number.numeral_inj {x y : Number} (h : x.numeral = y.numeral) : x = y :=
  x.numeral_spec.1.unique y.numeral_spec.1 h

theorem Tree.number?_numeral {n : Number} (hn : n.isIntegral = true) : number? n.numeral = some n := by
  cases n with
  | int n =>
    simp only [Number.isIntegral, Bool.and_eq_true, decide_eq_true_eq] at hn
    rw [Number.numeral_int, number?, Numeral.integer?_ofInt hn.1 hn.2]
  | real bits => cases hn

namespace Value

mutual

/-- Whether all numbers in the value are integers that fit 64 bits. -/
def isIntegral : Value → Bool
  | number n => n.isIntegral
  | array items => areIntegral items
  | object fields => fieldsAreIntegral fields
  | _ => true

def areIntegral : List Value → Bool
  | [] => true
  | v :: r => isIntegral v && areIntegral r

def fieldsAreIntegral : List (String × Value) → Bool
  | [] => true
  | (_, v) :: r => isIntegral v && fieldsAreIntegral r

end

mutual

/-- The tree that the value is written as. -/
def tree : Value → Tree
  | null => .null
  | bool b => .bool b
  | number n => .number n.numeral
  | string s => .string (some s)
  | array items => .array (trees items)
  | object fields => .object (fieldTrees fields)

def trees : List Value → List Tree
  | [] => []
  | v :: r => tree v :: trees r

def fieldTrees : List (String × Value) → List (Option String × Tree)
  | [] => []
  | (k, v) :: r => (some k, tree v) :: fieldTrees r

end

mutual

/-- The steps that the reader takes to read the value. -/
def steps : Value → Nat
  | array items => stepsItems items + 1
  | object fields => stepsFields fields + 1
  | _ => 1

def stepsItems : List Value → Nat
  | [] => 0
  | v :: r => steps v + stepsItems r + 1

def stepsFields : List (String × Value) → Nat
  | [] => 0
  | (_, v) :: r => steps v + stepsFields r + 1

end

end Value

/-! ## Reading a layout -/

theorem dropBlanks_append {b : List Char} (hb : ∀ c ∈ b, isBlank c = true) (cs : List Char) :
    dropBlanks (b ++ cs) = dropBlanks cs := List.dropWhile_append_of_pos hb

theorem dropBlanks_cons {c : Char} (hc : isBlank c = false) (cs : List Char) : dropBlanks (c :: cs) = c :: cs := by
  rw [dropBlanks, List.dropWhile_cons, hc, if_neg Bool.false_ne_true]

theorem dropBlanks_dropBlanks (cs : List Char) : dropBlanks (dropBlanks cs) = dropBlanks cs := by
  induction cs with
  | nil => rfl
  | cons c cs ih =>
    cases hc : isBlank c with
    | true => simpa only [dropBlanks, List.dropWhile_cons, hc, if_true] using ih
    | false => rw [dropBlanks_cons hc, dropBlanks_cons hc]

theorem isBlank_of_isDigit {c : Char} (hc : c.isDigit = true) : isBlank c = false := by
  cases hb : isBlank c with
  | false => rfl
  | true =>
    simp only [isBlank, Bool.or_eq_true, decide_eq_true_eq] at hb
    rcases hb with ((rfl | rfl) | rfl) | rfl <;> cases hc

/-- A closing bracket or a comma ends a number, also behind blanks. -/
theorem numberEnds_append {b : List Char} (hb : ∀ c ∈ b, isBlank c = true) {c : Char} (hc : c ∈ [',', ']', '}'])
    (r : List Char) : NumberEnds (b ++ c :: r) := by
  have hends : ∀ c, isBlank c = true ∨ c ∈ [',', ']', '}'] →
      c.isDigit = false ∧ c ≠ '.' ∧ c ≠ 'e' ∧ c ≠ 'E' := by
    intro c hc
    simp only [isBlank, Bool.or_eq_true, decide_eq_true_eq, List.mem_cons, List.not_mem_nil, or_false] at hc
    rcases hc with ((((rfl | rfl) | rfl) | rfl) | rfl | rfl | rfl) <;> decide
  intro d hd
  cases b with
  | nil =>
    cases hd
    exact hends c (.inr hc)
  | cons e b =>
    cases hd
    exact hends _ (.inl (hb _ List.mem_cons_self))

namespace Tree

theorem read_dropBlanks (n : Nat) (cs : List Char) : read n (dropBlanks cs) = read n cs := by
  cases n with
  | zero => simp only [read]
  | succ n => simp only [read, dropBlanks_dropBlanks]

theorem read_append {b : List Char} (hb : ∀ c ∈ b, isBlank c = true) (n : Nat) (cs : List Char) :
    read n (b ++ cs) = read n cs := by
  rw [← read_dropBlanks, dropBlanks_append hb, read_dropBlanks]

theorem readItems_dropBlanks (n : Nat) (cs : List Char) : readItems n (dropBlanks cs) = readItems n cs := by
  cases n with
  | zero => simp only [readItems]
  | succ n => simp only [readItems, read_dropBlanks]

theorem readFields_dropBlanks (n : Nat) (cs : List Char) : readFields n (dropBlanks cs) = readFields n cs := by
  cases n with
  | zero => simp only [readFields]
  | succ n => simp only [readFields, dropBlanks_dropBlanks]

/-! ### One step of the reader -/

theorem read_items {n : Nat} {cs : List Char} (hcs : ∀ r, dropBlanks cs ≠ ']' :: r) :
    read (n + 1) ('[' :: cs) = (readItems n cs).map fun (ts, r) => (array ts, r) := by
  simp only [read, dropBlanks_cons (c := '[') rfl, readItems_dropBlanks]

theorem read_fields {n : Nat} {cs : List Char} (hcs : ∀ r, dropBlanks cs ≠ '\x7d' :: r) :
    read (n + 1) ('\x7b' :: cs) = (readFields n cs).map fun (fs, r) => (object fs, r) := by
  simp only [read, dropBlanks_cons (c := '\x7b') rfl, readFields_dropBlanks]

theorem read_quoted (n : Nat) (s : String) (r : List Char) :
    read (n + 1) (quoted s ++ r) = some (string (some s), r) := by
  have hcs : quoted s ++ r = '"' :: (s.toList.flatMap escape ++ '"' :: r) := by
    simp only [quoted, List.cons_append, List.append_assoc, List.nil_append]
  rw [hcs]
  simp only [read, dropBlanks_cons (c := '"') rfl, string?_escape, Option.map_some, String.ofList_toList]

theorem read_number (n : Nat) (x : Number) {r : List Char} (hr : NumberEnds r) :
    read (n + 1) (x.text.toList ++ r) = some (number x.numeral, r) := by
  have hlex := x.lex?_text hr
  obtain ⟨c, cs, hcs, hc⟩ := x.exists_first_text
  have hblank : isBlank c = false := by
    rcases hc with rfl | hc
    · rfl
    · exact isBlank_of_isDigit hc
  rw [hcs, List.cons_append] at hlex ⊢
  rw [read, dropBlanks_cons hblank]
  -- the first character opens no other kind of value
  split
  case h_7 => rw [hlex, Option.map_some]
  all_goals
    next he =>
      obtain rfl := (List.cons.inj he).1
      rcases hc with hc | hc <;> cases hc

theorem readItems_last {n : Nat} {cs b r : List Char} {t : Tree} (hread : read n cs = some (t, b ++ ']' :: r))
    (hb : ∀ c ∈ b, isBlank c = true) : readItems (n + 1) cs = some ([t], r) := by
  simp only [readItems, hread, Option.bind_eq_bind, Option.bind_some, dropBlanks_append hb,
    dropBlanks_cons (c := ']') rfl]

theorem readItems_more {n : Nat} {cs r r' : List Char} {t : Tree} {ts : List Tree}
    (hread : read n cs = some (t, ',' :: r)) (hmore : readItems n r = some (ts, r')) :
    readItems (n + 1) cs = some (t :: ts, r') := by
  simp only [readItems, hread, Option.bind_eq_bind, Option.bind_some, dropBlanks_cons (c := ',') rfl, hmore,
    Option.map_some]

section Field

variable {n : Nat} {gap cs b r r' : List Char} {k : String} {t : Tree} (hgap : ∀ c ∈ gap, isBlank c = true)

include hgap

theorem readFields_last (hread : read n cs = some (t, b ++ '\x7d' :: r)) (hb : ∀ c ∈ b, isBlank c = true) :
    readFields (n + 1) (gap ++ quoted k ++ ':' :: cs) = some ([(some k, t)], r) := by
  have hcs : gap ++ quoted k ++ ':' :: cs = gap ++ '"' :: (k.toList.flatMap escape ++ '"' :: (':' :: cs)) := by
    simp only [quoted, List.cons_append, List.append_assoc, List.nil_append]
  rw [hcs, readFields, dropBlanks_append hgap, dropBlanks_cons (by rfl)]
  simp only [string?_escape, Option.bind_eq_bind, Option.bind_some, dropBlanks_cons (c := ':') rfl, hread,
    dropBlanks_append hb, dropBlanks_cons (c := '\x7d') rfl, String.ofList_toList]

theorem readFields_more {fs : List (Option String × Tree)} (hread : read n cs = some (t, ',' :: r))
    (hmore : readFields n r = some (fs, r')) :
    readFields (n + 1) (gap ++ quoted k ++ ':' :: cs) = some ((some k, t) :: fs, r') := by
  have hcs : gap ++ quoted k ++ ':' :: cs = gap ++ '"' :: (k.toList.flatMap escape ++ '"' :: (':' :: cs)) := by
    simp only [quoted, List.cons_append, List.append_assoc, List.nil_append]
  rw [hcs, readFields, dropBlanks_append hgap, dropBlanks_cons (by rfl)]
  simp only [string?_escape, Option.bind_eq_bind, Option.bind_some, dropBlanks_cons (c := ':') rfl, hread,
    dropBlanks_cons (c := ',') rfl, hmore, Option.map_some, String.ofList_toList]

end Field

end Tree

namespace Value

variable (y : Layout)

/-- No written value starts with a blank or a closing bracket. -/
theorem exists_first_written (level : Nat) (v : Value) :
    ∃ c cs, v.written y level = c :: cs ∧ isBlank c = false ∧ c ≠ ']' ∧ c ≠ '\x7d' := by
  cases v with
  | null => exact ⟨'n', _, rfl, by decide⟩
  | bool b => cases b with
    | true => exact ⟨'t', _, rfl, by decide⟩
    | false => exact ⟨'f', _, rfl, by decide⟩
  | string s => exact ⟨'"', _, rfl, by decide⟩
  | array items => cases items <;> exact ⟨'[', _, rfl, by decide⟩
  | object fields => cases fields <;> exact ⟨'\x7b', _, rfl, by decide⟩
  | number x =>
    obtain ⟨c, cs, hcs, hc⟩ := x.exists_first_text
    refine ⟨c, cs, hcs, ?_⟩
    rcases hc with rfl | hc
    · decide
    · refine ⟨isBlank_of_isDigit hc, ?_, ?_⟩ <;> rintro rfl <;> cases hc

theorem dropBlanks_writtenItems_ne (level : Nat) (v : Value) (items : List Value) (cs r : List Char) :
    dropBlanks (writtenItems y level (v :: items) ++ cs) ≠ ']' :: r := by
  obtain ⟨c, ds, hds, hblank, hc, -⟩ := exists_first_written y level v
  have hfirst : ∃ more, writtenItems y level (v :: items) = y.gap level ++ (v.written y level ++ more) := by
    cases items with
    | nil => exact ⟨[], by rw [writtenItems, List.append_nil]⟩
    | cons w items => exact ⟨_, by rw [writtenItems, List.append_assoc]; exact List.cons_ne_nil _ _⟩
  obtain ⟨more, hmore⟩ := hfirst
  rw [hmore, List.append_assoc, dropBlanks_append (y.isBlank_of_mem_gap level), hds, List.cons_append,
    List.cons_append, dropBlanks_cons hblank]
  exact fun he => hc (List.cons.inj he).1

theorem dropBlanks_writtenFields_ne (level : Nat) (e : String × Value) (fields : List (String × Value))
    (cs r : List Char) : dropBlanks (writtenFields y level (e :: fields) ++ cs) ≠ '\x7d' :: r := by
  have hfirst : ∃ more, writtenFields y level (e :: fields) = y.gap level ++ '"' :: more := by
    cases fields with
    | nil => exact ⟨_, by rw [writtenFields, quoted, List.append_assoc]; rfl⟩
    | cons f fields => exact ⟨_, by rw [writtenFields, quoted, List.append_assoc]; rfl; exact List.cons_ne_nil _ _⟩
  obtain ⟨more, hmore⟩ := hfirst
  rw [hmore, List.append_assoc, dropBlanks_append (y.isBlank_of_mem_gap level), List.cons_append,
    dropBlanks_cons (by rfl)]
  exact fun he => absurd (List.cons.inj he).1 (by decide)

mutual

/-- The reader finds the tree of a value in any layout, and stops behind it. -/
theorem read_written (level : Nat) : ∀ (v : Value) (n : Nat), v.steps ≤ n →
    ∀ r, NumberEnds r → Tree.read n (v.written y level ++ r) = some (v.tree, r)
  | null, n + 1, _, r, _ => by simp [Tree.read, written, chars, tree, dropBlanks_cons (c := 'n') rfl]
  | bool true, n + 1, _, r, _ => by simp [Tree.read, written, chars, tree, dropBlanks_cons (c := 't') rfl]
  | bool false, n + 1, _, r, _ => by simp [Tree.read, written, chars, tree, dropBlanks_cons (c := 'f') rfl]
  | number x, n + 1, _, _, hr => Tree.read_number n x hr
  | string s, n + 1, _, r, _ => Tree.read_quoted n s r
  | array [], n + 1, _, r, _ => by
    simp [Tree.read, written, tree, trees, dropBlanks_cons (c := '[') rfl, dropBlanks_cons (c := ']') rfl]
  | object [], n + 1, _, r, _ => by
    simp [Tree.read, written, tree, fieldTrees, dropBlanks_cons (c := '\x7b') rfl,
      dropBlanks_cons (c := '\x7d') rfl]
  | array (v :: items), n + 1, hn, r, _ => by
    have hread := readItems_written (level + 1) (v :: items) (List.cons_ne_nil _ _) n (Nat.le_of_succ_le_succ hn)
      (y.gap level) (y.isBlank_of_mem_gap level) r
    have hcs : (array (v :: items)).written y level ++ r
        = '[' :: (writtenItems y (level + 1) (v :: items) ++ (y.gap level ++ ']' :: r)) := by
      simp only [written, List.cons_append, List.append_assoc, List.nil_append]
    rw [hcs, Tree.read_items (dropBlanks_writtenItems_ne y (level + 1) v items _), hread]
    rfl
  | object (e :: fields), n + 1, hn, r, _ => by
    have hread := readFields_written (level + 1) (e :: fields) (List.cons_ne_nil _ _) n (Nat.le_of_succ_le_succ hn)
      (y.gap level) (y.isBlank_of_mem_gap level) r
    have hcs : (object (e :: fields)).written y level ++ r
        = '\x7b' :: (writtenFields y (level + 1) (e :: fields) ++ (y.gap level ++ '\x7d' :: r)) := by
      simp only [written, List.cons_append, List.append_assoc, List.nil_append]
    rw [hcs, Tree.read_fields (dropBlanks_writtenFields_ne y (level + 1) e fields _), hread]
    rfl

theorem readItems_written (level : Nat) : ∀ items : List Value, items ≠ [] →
    ∀ n, stepsItems items ≤ n → ∀ b, (∀ c ∈ b, isBlank c = true) → ∀ r,
      Tree.readItems n (writtenItems y level items ++ (b ++ ']' :: r)) = some (trees items, r)
  | [v], _, n + 1, hn, b, hb, r => by
    simp only [stepsItems] at hn
    have hread := read_written level v n (by omega) (b ++ ']' :: r) (numberEnds_append hb (by decide) r)
    rw [writtenItems, List.append_assoc]
    exact Tree.readItems_last (by rw [Tree.read_append (y.isBlank_of_mem_gap level), hread]) hb
  | v :: w :: items, _, n + 1, hn, b, hb, r => by
    rw [stepsItems] at hn
    have hmore := readItems_written level (w :: items) (List.cons_ne_nil _ _) n (by omega) b hb r
    have hread := read_written level v n (by omega)
      (',' :: (writtenItems y level (w :: items) ++ (b ++ ']' :: r))) (numberEnds_append (b := []) nofun (by decide) _)
    have hcs : writtenItems y level (v :: w :: items) ++ (b ++ ']' :: r) = y.gap level
        ++ (v.written y level ++ ',' :: (writtenItems y level (w :: items) ++ (b ++ ']' :: r))) := by
      simp only [writtenItems, List.cons_append, List.append_assoc]
    rw [hcs]
    exact Tree.readItems_more (by rw [Tree.read_append (y.isBlank_of_mem_gap level), hread]) hmore

theorem readFields_written (level : Nat) : ∀ fields : List (String × Value), fields ≠ [] →
    ∀ n, stepsFields fields ≤ n → ∀ b, (∀ c ∈ b, isBlank c = true) → ∀ r,
      Tree.readFields n (writtenFields y level fields ++ (b ++ '\x7d' :: r)) = some (fieldTrees fields, r)
  | [(k, v)], _, n + 1, hn, b, hb, r => by
    simp only [stepsFields] at hn
    have hread := read_written level v n (by omega) (b ++ '\x7d' :: r) (numberEnds_append hb (by decide) r)
    have hcs : writtenFields y level [(k, v)] ++ (b ++ '\x7d' :: r)
        = y.gap level ++ quoted k ++ ':' :: (y.space ++ (v.written y level ++ (b ++ '\x7d' :: r))) := by
      simp only [writtenFields, List.cons_append, List.append_assoc]
    rw [hcs]
    exact Tree.readFields_last (y.isBlank_of_mem_gap level)
      (by rw [Tree.read_append y.isBlank_of_mem_space, hread]) hb
  | (k, v) :: e :: fields, _, n + 1, hn, b, hb, r => by
    rw [stepsFields] at hn
    have hmore := readFields_written level (e :: fields) (List.cons_ne_nil _ _) n (by omega) b hb r
    have hread := read_written level v n (by omega)
      (',' :: (writtenFields y level (e :: fields) ++ (b ++ '\x7d' :: r)))
      (numberEnds_append (b := []) nofun (by decide) _)
    have hcs : writtenFields y level ((k, v) :: e :: fields) ++ (b ++ '\x7d' :: r)
        = y.gap level ++ quoted k ++ ':' :: (y.space
          ++ (v.written y level ++ ',' :: (writtenFields y level (e :: fields) ++ (b ++ '\x7d' :: r)))) := by
      simp only [writtenFields, List.cons_append, List.append_assoc]
    rw [hcs]
    exact Tree.readFields_more (y.isBlank_of_mem_gap level)
      (by rw [Tree.read_append y.isBlank_of_mem_space, hread]) hmore

end

/-! ## Whole texts -/

mutual

/-- The reader takes two steps a character at most. -/
theorem steps_le (level : Nat) : ∀ v : Value, v.steps ≤ 2 * (v.written y level).length + 1
  | null | bool _ | number _ | string _ | array [] | object [] => by simp [steps, stepsItems, stepsFields]
  | array (v :: items) => by
    have := stepsItems_le (level + 1) (v :: items)
    simp only [steps, written, List.length_cons, List.length_append, List.length_nil]
    omega
  | object (e :: fields) => by
    have := stepsFields_le (level + 1) (e :: fields)
    simp only [steps, written, List.length_cons, List.length_append, List.length_nil]
    omega

theorem stepsItems_le (level : Nat) : ∀ items, stepsItems items ≤ 2 * (writtenItems y level items).length + 2
  | [] => by simp [stepsItems]
  | [v] => by
    have := steps_le level v
    simp only [stepsItems, writtenItems, List.length_append]
    omega
  | v :: w :: items => by
    have := steps_le level v
    have := stepsItems_le level (w :: items)
    rw [stepsItems, writtenItems, List.length_append, List.length_append, List.length_cons]
    · omega
    · exact List.cons_ne_nil _ _

theorem stepsFields_le (level : Nat) :
    ∀ fields, stepsFields fields ≤ 2 * (writtenFields y level fields).length + 2
  | [] => by simp [stepsFields]
  | [(k, v)] => by
    have := steps_le level v
    simp only [stepsFields, writtenFields, List.length_append, List.length_cons]
    omega
  | (k, v) :: e :: fields => by
    have := steps_le level v
    have := stepsFields_le level (e :: fields)
    rw [stepsFields, writtenFields]
    · simp only [List.length_append, List.length_cons]
      omega
    · exact List.cons_ne_nil _ _

end

theorem parse?_written (v : Value) : Tree.parse? (String.ofList (v.written y 0)) = some v.tree := by
  have hsteps := steps_le y 0 v
  have hread := read_written y 0 v (2 * (v.written y 0).length + 2) (by omega) [] nofun
  rw [List.append_nil] at hread
  simp only [Tree.parse?, String.toList_ofList, hread]
  rfl

theorem parse?_compact (v : Value) : Tree.parse? v.compact = some v.tree := by
  rw [compact, ← written_tight 0]
  exact parse?_written .tight v

theorem parse?_pretty (v : Value) : Tree.parse? v.pretty = some v.tree := by
  rw [pretty, ← written_lines 0]
  exact parse?_written .lines v

/-! ## Different values -/

mutual

theorem tree_inj : ∀ {v w : Value}, v.tree = w.tree → v = w
  | null, w, h => by
    cases w <;> cases h
    rfl
  | bool a, w, h => by
    cases w <;> cases h
    rfl
  | string s, w, h => by
    cases w <;> cases h
    rfl
  | number x, w, h => by
    cases w with
    | number y =>
      rw [tree, tree, Tree.number.injEq] at h
      rw [Number.numeral_inj h]
    | _ => cases h
  | array items, w, h => by
    cases w with
    | array items' =>
      rw [tree, tree, Tree.array.injEq] at h
      rw [trees_inj h]
    | _ => cases h
  | object fields, w, h => by
    cases w with
    | object fields' =>
      rw [tree, tree, Tree.object.injEq] at h
      rw [fieldTrees_inj h]
    | _ => cases h

theorem trees_inj : ∀ {items items' : List Value}, trees items = trees items' → items = items'
  | [], items', h => by
    cases items' <;> cases h
    rfl
  | v :: items, items', h => by
    cases items' with
    | nil => cases h
    | cons w items' =>
      obtain ⟨hv, hitems⟩ := List.cons.inj h
      rw [tree_inj hv, trees_inj hitems]

theorem fieldTrees_inj : ∀ {fields fields' : List (String × Value)},
    fieldTrees fields = fieldTrees fields' → fields = fields'
  | [], fields', h => by
    cases fields' <;> cases h
    rfl
  | (k, v) :: fields, fields', h => by
    cases fields' with
    | nil => cases h
    | cons e fields' =>
      obtain ⟨he, hfields⟩ := List.cons.inj h
      obtain ⟨hk, hv⟩ := Prod.mk.inj he
      rw [Option.some.inj hk, tree_inj hv, fieldTrees_inj hfields]

end

/-- Different values are written differently. -/
theorem compact_inj {v w : Value} (h : v.compact = w.compact) : v = w := by
  have hparse := parse?_compact v
  rw [h, parse?_compact w] at hparse
  exact tree_inj (Option.some.inj hparse).symm

end Value

end ManagementPlane.Json
