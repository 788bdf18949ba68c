import Mathlib.Data.List.Basic
import Mathlib.Tactic.Common

/-!
# Markup

A page that is written as tags and text, and the tokenizer that reads it. The tokenizer goes
through the states of the HTML standard on the pages that it covers, and refuses every other page:
tags with names in lower case, attributes in double quotes or without a value, the references to
the five characters with a meaning of their own, and text. An escaped value is read back where it
stands, up to the line ends and null characters that no page can hold.
-/

namespace Markup

/-! ## Characters -/

def apostrophe : Char := Char.ofNat 39

def nul : Char := Char.ofNat 0

def replacement : Char := Char.ofNat 0xFFFD

def isNameChar (c : Char) : Bool := c.isLower || c.isDigit || c = '-'

def isSpace (c : Char) : Bool := c = ' ' || c = '\n' || c = '\t' || c = Char.ofNat 12

/-- Newlines are normalized before the page is read; `afterCr` tells of a carriage return. -/
def normalizeFrom : Bool → List Char → List Char
  | _, [] => []
  | afterCr, c :: cs =>
    if c = '\r' then '\n' :: normalizeFrom true cs
    else if c = '\n' ∧ afterCr = true then normalizeFrom false cs
    else c :: normalizeFrom false cs

def normalize (cs : List Char) : List Char := normalizeFrom false cs

/-! ## The tokenizer -/

/-- The first attribute of a name counts. -/
structure Tag where
  name : String
  attributes : List (String × String)
  deriving DecidableEq

inductive Token
  | start (tag : Tag)
  | stop (name : String)
  | char (c : Char)
  deriving DecidableEq

/-- The states of the tokenizer, with what is read of a tag so far. -/
inductive Mode
  | data
  | tagOpen
  | endTagOpen
  | tagName (name : List Char)
  | endTagName (name : List Char)
  | beforeAttributeName (tag : Tag)
  | attributeName (tag : Tag) (name : List Char)
  | beforeAttributeValue (tag : Tag) (name : List Char)
  | attributeValue (tag : Tag) (name value : List Char)
  | afterAttributeValue (tag : Tag)
  deriving DecidableEq

/-- A mode, and the characters after an ampersand. -/
structure State where
  mode : Mode
  reference : Option (List Char) := none
  deriving DecidableEq

def Tag.add (tag : Tag) (name value : List Char) : Tag :=
  ⟨tag.name, tag.attributes ++ [(String.ofList name, String.ofList value)]⟩

/-- The elements whose content is not read as markup and text. -/
def specialNames : List String :=
  ["iframe", "math", "noembed", "noframes", "noscript", "plaintext", "script", "style", "svg",
    "template", "textarea", "title", "xmp"]

def emitStart (tag : Tag) : Option (State × List Token) :=
  if tag.name ∈ specialNames then none else some (⟨.data, none⟩, [.start tag])

/-- A character outside a reference. -/
def modeStep : Mode → Char → Option (State × List Token)
  | .data, c =>
    if c = '<' then some (⟨.tagOpen, none⟩, [])
    else if c = '&' then some (⟨.data, some []⟩, [])
    -- The tree that is built from the tokens has no null characters in its text.
    else if c = nul then some (⟨.data, none⟩, [])
    else some (⟨.data, none⟩, [.char c])
  | .tagOpen, c =>
    if c = '/' then some (⟨.endTagOpen, none⟩, [])
    else if c.isLower then some (⟨.tagName [c], none⟩, [])
    else none
  | .endTagOpen, c => if c.isLower then some (⟨.endTagName [c], none⟩, []) else none
  | .tagName name, c =>
    if c = '>' then emitStart ⟨String.ofList name, []⟩
    else if isSpace c then some (⟨.beforeAttributeName ⟨String.ofList name, []⟩, none⟩, [])
    else if isNameChar c then some (⟨.tagName (name ++ [c]), none⟩, [])
    else none
  | .endTagName name, c =>
    if c = '>' then some (⟨.data, none⟩, [.stop (String.ofList name)])
    else if isNameChar c then some (⟨.endTagName (name ++ [c]), none⟩, [])
    else none
  | .beforeAttributeName tag, c =>
    if isSpace c then some (⟨.beforeAttributeName tag, none⟩, [])
    else if isNameChar c then some (⟨.attributeName tag [c], none⟩, [])
    else none
  | .attributeName tag name, c =>
    if c = '=' then some (⟨.beforeAttributeValue tag name, none⟩, [])
    else if c = '>' then emitStart (tag.add name [])
    else if isSpace c then some (⟨.beforeAttributeName (tag.add name []), none⟩, [])
    else if isNameChar c then some (⟨.attributeName tag (name ++ [c]), none⟩, [])
    else none
  | .beforeAttributeValue tag name, c =>
    if isSpace c then some (⟨.beforeAttributeValue tag name, none⟩, [])
    else if c = '"' then some (⟨.attributeValue tag name [], none⟩, [])
    else none
  | .attributeValue tag name value, c =>
    if c = '"' then some (⟨.afterAttributeValue (tag.add name value), none⟩, [])
    else if c = '&' then some (⟨.attributeValue tag name value, some []⟩, [])
    else if c = nul then some (⟨.attributeValue tag name (value ++ [replacement]), none⟩, [])
    else some (⟨.attributeValue tag name (value ++ [c]), none⟩, [])
  | .afterAttributeValue tag, c =>
    if c = '>' then emitStart tag
    else if isSpace c then some (⟨.beforeAttributeName tag, none⟩, [])
    else none

/-- The references that stand for the characters with a meaning of their own. -/
def referenced (name : List Char) : Option Char :=
  if name = ['a', 'm', 'p'] then some '&'
  else if name = ['l', 't'] then some '<'
  else if name = ['g', 't'] then some '>'
  else if name = ['q', 'u', 'o', 't'] then some '"'
  else if name = ['#', '3', '9'] then some apostrophe
  else none

/-- The character of a reference, which is never markup. -/
def putChar : Mode → Char → Option (State × List Token)
  | .data, c => some (⟨.data, none⟩, [.char c])
  | .attributeValue tag name value, c =>
    some (⟨.attributeValue tag name (value ++ [c]), none⟩, [])
  | _, _ => none

def step (s : State) (c : Char) : Option (State × List Token) :=
  match s.reference with
  | none => modeStep s.mode c
  | some name =>
    if c = ';' then (referenced name).bind (putChar s.mode)
    else if c.isAlphanum ∨ c = '#' then some (⟨s.mode, some (name ++ [c])⟩, [])
    else none

def run : State → List Char → Option (State × List Token)
  | s, [] => some (s, [])
  | s, c :: cs => (step s c).bind fun r => (run r.1 cs).map fun q => (q.1, r.2 ++ q.2)

/-- The tokens of a page. -/
def readPage (page : String) : Option (List Token) :=
  match run ⟨.data, none⟩ (normalize page.toList) with
  | some (⟨.data, none⟩, tokens) => some tokens
  | _ => none

/-! ## Pages -/

def escapeChar (c : Char) : List Char :=
  if c = '&' then ['&', 'a', 'm', 'p', ';']
  else if c = '<' then ['&', 'l', 't', ';']
  else if c = '>' then ['&', 'g', 't', ';']
  else if c = '"' then ['&', 'q', 'u', 'o', 't', ';']
  else if c = apostrophe then ['&', '#', '3', '9', ';']
  else [c]

def escape (cs : List Char) : List Char := cs.flatMap escapeChar

inductive Attribute
  | flag (name : String)
  /-- The page's own text, and a value after it that is escaped. -/
  | quoted (name own : String) (value : String := "")

/-- What a page is put together from. -/
inductive Item
  | start (name : String) (attributes : List Attribute := [])
  | stop (name : String)
  /-- Text that stands as it is. -/
  | own (text : String)
  /-- A value that is escaped. -/
  | value (text : String)

def Attribute.render : Attribute → List Char
  | .flag name => ' ' :: name.toList
  | .quoted name own value =>
    ' ' :: (name.toList ++ '=' :: '"' :: (own.toList ++ (escape value.toList ++ ['"'])))

def Item.render : Item → List Char
  | .start name attributes =>
    '<' :: (name.toList ++ (attributes.flatMap Attribute.render ++ ['>']))
  | .stop name => '<' :: '/' :: (name.toList ++ ['>'])
  | .own text => text.toList
  | .value text => escape text.toList

def render (items : List Item) : List Char := items.flatMap Item.render

/-- A value in the text of a page. -/
def shownText (value : String) : String :=
  String.ofList ((normalize value.toList).filter fun c => c ≠ nul)

def shownChar (c : Char) : Char := if c = nul then replacement else c

/-- A value in an attribute. -/
def shownValue (value : String) : String := String.ofList ((normalize value.toList).map shownChar)

def Attribute.read : Attribute → String × String
  | .flag name => (name, "")
  | .quoted name own value => (name, own ++ shownValue value)

/-- What the author of a page means. -/
def Item.tokens : Item → List Token
  | .start name attributes => [.start ⟨name, attributes.map Attribute.read⟩]
  | .stop name => [.stop name]
  | .own text => text.toList.map .char
  | .value text => (shownText text).toList.map .char

def tokens (items : List Item) : List Token := items.flatMap Item.tokens

/-! ## Well-formed pages -/

def nameOk (name : String) : Bool :=
  match name.toList with
  | [] => false
  | c :: cs => c.isLower && cs.all isNameChar

/-- Characters that mean themselves. -/
def plain (c : Char) : Bool :=
  c ≠ '&' && c ≠ '<' && c ≠ '>' && c ≠ '"' && c ≠ apostrophe && c ≠ '\r' && c ≠ nul

def literal (text : String) : Bool := text.toList.all plain

def Attribute.Ok : Attribute → Prop
  | .flag name => nameOk name = true
  | .quoted name own _ => nameOk name = true ∧ literal own = true

/-- No line feed comes first, which a carriage return before it would swallow. -/
def startsOnLine : List Item → Bool
  | .own text :: _ => text.toList.head?.any fun c => c ≠ '\n'
  | .value _ :: _ => false
  | _ => true

def WellFormed : List Item → Prop
  | [] => True
  | .start name attributes :: items =>
    nameOk name = true ∧ name ∉ specialNames ∧ (∀ a ∈ attributes, a.Ok) ∧ WellFormed items
  | .stop name :: items => nameOk name = true ∧ WellFormed items
  | .own text :: items => literal text = true ∧ WellFormed items
  | .value _ :: items => startsOnLine items = true ∧ WellFormed items

/-! ## Newlines -/

section Newlines

variable {xs ys : List Char} {c : Char}

/-- The text ends in a carriage return. -/
def endsCr : Bool → List Char → Bool
  | afterCr, [] => afterCr
  | _, c :: cs => endsCr (decide (c = '\r')) cs

theorem normalizeFrom_append (afterCr : Bool) (xs ys : List Char) :
    normalizeFrom afterCr (xs ++ ys) =
      normalizeFrom afterCr xs ++ normalizeFrom (endsCr afterCr xs) ys := by
  induction xs generalizing afterCr with
  | nil => rfl
  | cons c xs ih =>
    simp only [List.cons_append, normalizeFrom, endsCr]
    by_cases hcr : c = '\r'
    · simp only [hcr, if_true, decide_true, List.cons_append, ih]
    · simp only [hcr, if_false, decide_false]
      split_ifs
      · exact ih false
      · rw [ih, List.cons_append]

theorem normalizeFrom_eq (afterCr : Bool) (h : xs.head? ≠ some '\n') :
    normalizeFrom afterCr xs = normalize xs := by
  cases xs with
  | nil => cases afterCr <;> rfl
  | cons c xs =>
    have hc : c ≠ '\n' := fun heq => h (congrArg some heq)
    simp [normalize, normalizeFrom, hc]

theorem normalize_append (h : endsCr false xs = true → ys.head? ≠ some '\n') :
    normalize (xs ++ ys) = normalize xs ++ normalize ys := by
  rw [normalize, normalizeFrom_append]
  cases hend : endsCr false xs with
  | false => rfl
  | true =>
    rw [normalizeFrom_eq true (h hend)]
    rfl

theorem endsCr_append (afterCr : Bool) (xs ys : List Char) :
    endsCr afterCr (xs ++ ys) = endsCr (endsCr afterCr xs) ys := by
  induction xs generalizing afterCr with
  | nil => rfl
  | cons c xs ih => exact ih _

theorem endsCr_of_not_mem (h : '\r' ∉ xs) : endsCr false xs = false := by
  induction xs with
  | nil => rfl
  | cons c xs ih =>
    rw [List.mem_cons, not_or] at h
    rw [endsCr, decide_eq_false (Ne.symm h.1)]
    exact ih h.2

theorem normalize_of_not_mem (h : '\r' ∉ xs) : normalize xs = xs := by
  induction xs with
  | nil => rfl
  | cons c xs ih =>
    rw [List.mem_cons, not_or] at h
    have hxs : normalizeFrom false xs = xs := ih h.2
    simp [normalize, normalizeFrom, Ne.symm h.1, hxs]

/-- Text without a carriage return is read apart from what follows. -/
theorem normalize_append_of_not_mem (h : '\r' ∉ xs) (ys : List Char) :
    normalize (xs ++ ys) = xs ++ normalize ys := by
  have hend := endsCr_of_not_mem h
  rw [normalize_append (by simp [hend]), normalize_of_not_mem h]

theorem escapeChar_of_special (h : c = '&' ∨ c = '<' ∨ c = '>' ∨ c = '"' ∨ c = apostrophe) :
    ∃ xs, escapeChar c = '&' :: xs ∧ '\r' ∉ xs ∧ '\n' ∉ xs := by
  rcases h with rfl | rfl | rfl | rfl | rfl
  · exact ⟨_, rfl, by decide, by decide⟩
  · exact ⟨_, rfl, by decide, by decide⟩
  · exact ⟨_, rfl, by decide, by decide⟩
  · exact ⟨_, rfl, by decide, by decide⟩
  · exact ⟨_, rfl, by decide, by decide⟩

theorem escapeChar_of_not_special
    (h : ¬ (c = '&' ∨ c = '<' ∨ c = '>' ∨ c = '"' ∨ c = apostrophe)) : escapeChar c = [c] := by
  simp only [not_or] at h
  simp [escapeChar, h]

theorem normalizeFrom_escape (afterCr : Bool) (xs : List Char) :
    normalizeFrom afterCr (escape xs) = escape (normalizeFrom afterCr xs) := by
  induction xs generalizing afterCr with
  | nil => rfl
  | cons c xs ih =>
    have hcons : ∀ (d : Char) (ds : List Char), escape (d :: ds) = escapeChar d ++ escape ds :=
      fun _ _ => rfl
    by_cases hc : c = '&' ∨ c = '<' ∨ c = '>' ∨ c = '"' ∨ c = apostrophe
    · obtain ⟨ds, hds, hcr, -⟩ := escapeChar_of_special hc
      have hne : c ≠ '\r' ∧ c ≠ '\n' := by
        rcases hc with rfl | rfl | rfl | rfl | rfl <;> decide
      have hend : endsCr false ('&' :: ds) = false :=
        endsCr_of_not_mem (by simpa using hcr)
      rw [hcons, hds, normalizeFrom_append, normalizeFrom_eq afterCr (by simp),
        normalize_of_not_mem (by simpa using hcr)]
      have hflag : endsCr afterCr ('&' :: ds) = false := hend
      rw [hflag, ih, normalizeFrom, if_neg hne.1, if_neg (by simp [hne.2]), hcons, hds]
    · rw [hcons, escapeChar_of_not_special hc, List.singleton_append]
      simp only [normalizeFrom]
      split_ifs
      · rw [ih, hcons]
        rfl
      · exact ih false
      · rw [ih, hcons, escapeChar_of_not_special hc, List.singleton_append]

theorem normalize_escape (xs : List Char) : normalize (escape xs) = escape (normalize xs) :=
  normalizeFrom_escape false xs

end Newlines

/-! ## Runs of the tokenizer -/

section Runs

variable {s t u : State} {a b : List Token} {xs ys : List Char} {c : Char} {tag : Tag}
  {m : Mode}

theorem run_append (h : run s xs = some (t, a)) (h' : run t ys = some (u, b)) :
    run s (xs ++ ys) = some (u, a ++ b) := by
  induction xs generalizing s a with
  | nil =>
    cases h
    exact h'
  | cons c xs ih =>
    simp only [run, Option.bind_eq_some_iff, Option.map_eq_some_iff] at h
    obtain ⟨⟨v, d⟩, hstep, ⟨⟨w, e⟩, hrest, heq⟩⟩ := h
    obtain ⟨rfl, rfl⟩ := Prod.mk.inj heq
    simp [run, hstep, ih hrest]

theorem run_cons (h : step s c = some (t, a)) (h' : run t ys = some (u, b)) :
    run s (c :: ys) = some (u, a ++ b) := by
  have hone : run s [c] = some (t, a) := by simp [run, h]
  exact run_append hone h'

/-! ### Values -/

theorem run_escapeChar_data (c : Char) : run ⟨.data, none⟩ (escapeChar c) =
    some (⟨.data, none⟩, if c = nul then [] else [.char c]) := by
  by_cases hc : c = '&' ∨ c = '<' ∨ c = '>' ∨ c = '"' ∨ c = apostrophe
  · rcases hc with rfl | rfl | rfl | rfl | rfl <;> rfl
  · rw [escapeChar_of_not_special hc]
    simp only [not_or] at hc
    by_cases hnul : c = nul
    · subst hnul
      rfl
    · simp [run, step, modeStep, hc, hnul]

theorem run_escape_data (xs : List Char) : run ⟨.data, none⟩ (escape xs) =
    some (⟨.data, none⟩, (xs.filter fun c => c ≠ nul).map .char) := by
  induction xs with
  | nil => rfl
  | cons c xs ih =>
    have happend := run_append (run_escapeChar_data c) ih
    refine happend.trans ?_
    by_cases hnul : c = nul <;> simp [hnul]

theorem run_escapeChar_value (tag : Tag) (name value : List Char) (c : Char) :
    run ⟨.attributeValue tag name value, none⟩ (escapeChar c) =
      some (⟨.attributeValue tag name (value ++ [shownChar c]), none⟩, []) := by
  by_cases hc : c = '&' ∨ c = '<' ∨ c = '>' ∨ c = '"' ∨ c = apostrophe
  · rcases hc with rfl | rfl | rfl | rfl | rfl <;> rfl
  · rw [escapeChar_of_not_special hc]
    simp only [not_or] at hc
    by_cases hnul : c = nul
    · subst hnul
      rfl
    · simp [run, step, modeStep, shownChar, hc, hnul]

theorem run_escape_value (tag : Tag) (name value xs : List Char) :
    run ⟨.attributeValue tag name value, none⟩ (escape xs) =
      some (⟨.attributeValue tag name (value ++ xs.map shownChar), none⟩, []) := by
  induction xs generalizing value with
  | nil => simp [escape, run]
  | cons c xs ih =>
    have happend := run_append (run_escapeChar_value tag name value c) (ih _)
    refine happend.trans ?_
    simp

theorem escape_of_literal (h : xs.all plain = true) : escape xs = xs := by
  induction xs with
  | nil => rfl
  | cons c xs ih =>
    rw [List.all_cons, Bool.and_eq_true] at h
    have hc : escapeChar c = [c] := by
      have hplain := h.1
      simp only [plain, Bool.and_eq_true, decide_eq_true_eq] at hplain
      exact escapeChar_of_not_special (by simp [hplain])
    show escapeChar c ++ escape xs = c :: xs
    rw [hc, ih h.2, List.singleton_append]

theorem literal_chars {text : String} (h : literal text = true) :
    '\r' ∉ text.toList ∧ nul ∉ text.toList := by
  have hplain := List.all_eq_true.mp h
  constructor
  · intro hmem
    exact absurd (hplain _ hmem) (by decide)
  · intro hmem
    exact absurd (hplain _ hmem) (by decide)

theorem map_shownChar_of_not_mem (h : nul ∉ xs) : xs.map shownChar = xs := by
  conv_rhs => rw [← List.map_id xs]
  refine List.map_congr_left fun c hc => if_neg ?_
  rintro rfl
  exact h hc

/-! ### Names -/

/-- A mode that collects the characters of a name. -/
theorem run_name {f : List Char → Mode}
    (hf : ∀ name c, isNameChar c = true →
      modeStep (f name) c = some (⟨f (name ++ [c]), none⟩, []))
    (name : List Char) (h : xs.all isNameChar = true) :
    run ⟨f name, none⟩ xs = some (⟨f (name ++ xs), none⟩, []) := by
  induction xs generalizing name with
  | nil => simp [run]
  | cons c xs ih =>
    rw [List.all_cons, Bool.and_eq_true] at h
    have hstep : step ⟨f name, none⟩ c = some (⟨f (name ++ [c]), none⟩, []) := hf name c h.1
    simpa using run_cons hstep (ih (name ++ [c]) h.2)

theorem ne_of_isNameChar (h : isNameChar c = true) :
    c ≠ '>' ∧ c ≠ '=' ∧ c ≠ '/' ∧ c ≠ '\r' ∧ isSpace c = false := by
  refine ⟨?_, ?_, ?_, ?_, ?_⟩
  · rintro rfl
    revert h
    decide
  · rintro rfl
    revert h
    decide
  · rintro rfl
    revert h
    decide
  · rintro rfl
    revert h
    decide
  · rw [Bool.eq_false_iff]
    intro hspace
    simp only [isSpace, Bool.or_eq_true, decide_eq_true_eq] at hspace
    rcases hspace with ((rfl | rfl) | rfl) | rfl <;> (revert h; decide)

theorem tagName_step (name : List Char) (c : Char) (h : isNameChar c = true) :
    modeStep (.tagName name) c = some (⟨.tagName (name ++ [c]), none⟩, []) := by
  obtain ⟨hgt, -, -, -, hspace⟩ := ne_of_isNameChar h
  simp [modeStep, hgt, hspace, h]

theorem endTagName_step (name : List Char) (c : Char) (h : isNameChar c = true) :
    modeStep (.endTagName name) c = some (⟨.endTagName (name ++ [c]), none⟩, []) := by
  obtain ⟨hgt, -, -, -, -⟩ := ne_of_isNameChar h
  simp [modeStep, hgt, h]

theorem attributeName_step (tag : Tag) (name : List Char) (c : Char) (h : isNameChar c = true) :
    modeStep (.attributeName tag name) c =
      some (⟨.attributeName tag (name ++ [c]), none⟩, []) := by
  obtain ⟨hgt, heq, -, -, hspace⟩ := ne_of_isNameChar h
  simp [modeStep, hgt, heq, hspace, h]

/-- A name begins with a letter. -/
theorem nameOk_cases {name : String} (h : nameOk name = true) :
    ∃ c cs, name.toList = c :: cs ∧ c.isLower = true ∧ isNameChar c = true ∧
      cs.all isNameChar = true := by
  unfold nameOk at h
  split at h
  · cases h
  · next c cs hname =>
    rw [Bool.and_eq_true] at h
    exact ⟨c, cs, hname, h.1, by simp [isNameChar, h.1], h.2⟩

theorem not_mem_of_nameOk {name : String} (h : nameOk name = true) : '\r' ∉ name.toList := by
  obtain ⟨c, cs, hname, -, hc, hcs⟩ := nameOk_cases h
  rw [hname]
  intro hmem
  have hchar : isNameChar '\r' = true := by
    rcases List.mem_cons.mp hmem with rfl | hmem
    · exact hc
    · exact List.all_eq_true.mp hcs _ hmem
  exact absurd hchar (by decide)

/-! ### Tags -/

/-- The tag that is complete unless an attribute follows. -/
def Mode.tag? : Mode → Option Tag
  | .tagName name => some ⟨String.ofList name, []⟩
  | .attributeName tag name => some (tag.add name [])
  | .afterAttributeValue tag => some tag
  | _ => none

theorem step_space (h : m.tag? = some tag) :
    step ⟨m, none⟩ ' ' = some (⟨.beforeAttributeName tag, none⟩, []) := by
  cases m with
  | tagName name | attributeName tag name | afterAttributeValue tag =>
    cases h
    rfl
  | _ => cases h

theorem step_close (h : m.tag? = some tag) : step ⟨m, none⟩ '>' = emitStart tag := by
  cases m with
  | tagName name | attributeName tag name | afterAttributeValue tag =>
    cases h
    rfl
  | _ => cases h

/-- The name of an attribute, after a space. -/
theorem run_attributeName {name : String} (hname : nameOk name = true)
    (h : m.tag? = some tag) : run ⟨m, none⟩ (' ' :: name.toList) =
      some (⟨.attributeName tag name.toList, none⟩, []) := by
  obtain ⟨c, cs, hchars, -, hc, hcs⟩ := nameOk_cases hname
  rw [hchars]
  obtain ⟨-, -, -, -, hspace⟩ := ne_of_isNameChar hc
  have hfirst : step ⟨.beforeAttributeName tag, none⟩ c =
      some (⟨.attributeName tag [c], none⟩, []) := by
    simp [step, modeStep, hspace, hc]
  exact run_cons (step_space h) (run_cons hfirst (run_name (attributeName_step tag) [c] hcs))

theorem run_attribute {attr : Attribute} (hok : attr.Ok) (h : m.tag? = some tag) :
    ∃ m' : Mode, m'.tag? = some ⟨tag.name, tag.attributes ++ [attr.read]⟩ ∧
      run ⟨m, none⟩ (normalize attr.render) = some (⟨m', none⟩, []) := by
  cases attr with
  | flag name =>
    have hcr : '\r' ∉ ' ' :: name.toList := by simpa using not_mem_of_nameOk hok
    refine ⟨.attributeName tag name.toList, by simp [Mode.tag?, Tag.add, Attribute.read], ?_⟩
    rw [Attribute.render, normalize_of_not_mem hcr]
    exact run_attributeName hok h
  | quoted name own value =>
    obtain ⟨hname, hown⟩ := hok
    obtain ⟨hcr, hnul⟩ := literal_chars hown
    have hopening : '\r' ∉ ' ' :: name.toList := by simpa using not_mem_of_nameOk hname
    have hquotes : '\r' ∉ ['=', '"'] := by decide
    have hrender : Attribute.render (.quoted name own value) =
        (' ' :: name.toList) ++ (['=', '"'] ++ (own.toList ++ (escape value.toList ++ ['"']))) := by
      simp [Attribute.render]
    have hclosing : normalize (escape value.toList ++ ['"']) =
        escape (normalize value.toList) ++ ['"'] := by
      rw [normalize_append (by simp), normalize_escape]
      rfl
    rw [hrender, normalize_append_of_not_mem hopening, normalize_append_of_not_mem hquotes,
      normalize_append_of_not_mem hcr, hclosing]
    have hvalue := run_escape_value tag name.toList own.toList (normalize value.toList)
    have hprefix := run_escape_value tag name.toList [] own.toList
    rw [escape_of_literal hown, map_shownChar_of_not_mem hnul, List.nil_append] at hprefix
    have hopen : run ⟨.attributeName tag name.toList, none⟩ ['=', '"'] =
        some (⟨.attributeValue tag name.toList [], none⟩, []) := rfl
    have hclose : ∀ v, run ⟨.attributeValue tag name.toList v, none⟩ ['"'] =
        some (⟨.afterAttributeValue (tag.add name.toList v), none⟩, []) := fun _ => rfl
    refine ⟨.afterAttributeValue (tag.add name.toList
      (own.toList ++ (normalize value.toList).map shownChar)), ?_, ?_⟩
    · simp [Mode.tag?, Tag.add, Attribute.read, shownValue]
    · exact run_append (run_attributeName hname h) (run_append hopen (run_append hprefix
        (run_append hvalue (hclose _))))

theorem endsCr_attribute {attr : Attribute} (hok : attr.Ok) :
    endsCr false attr.render = false := by
  cases attr with
  | flag name => exact endsCr_of_not_mem (by simpa [Attribute.render] using not_mem_of_nameOk hok)
  | quoted name own value =>
    have hrender : Attribute.render (.quoted name own value) =
        (' ' :: (name.toList ++ '=' :: '"' :: (own.toList ++ escape value.toList))) ++ ['"'] := by
      simp [Attribute.render]
    rw [hrender, endsCr_append]
    rfl

theorem run_attributes {attributes : List Attribute} (hok : ∀ a ∈ attributes, a.Ok)
    (h : m.tag? = some tag) :
    ∃ m' : Mode, m'.tag? = some ⟨tag.name, tag.attributes ++ attributes.map Attribute.read⟩ ∧
      run ⟨m, none⟩ (normalize (attributes.flatMap Attribute.render)) = some (⟨m', none⟩, []) := by
  induction attributes generalizing m tag with
  | nil => exact ⟨m, by simpa using h, rfl⟩
  | cons attr attributes ih =>
    obtain ⟨hfirst, hrest⟩ := List.forall_mem_cons.mp hok
    obtain ⟨m₁, htag₁, hrun₁⟩ := run_attribute hfirst h
    obtain ⟨m₂, htag₂, hrun₂⟩ := ih hrest htag₁
    refine ⟨m₂, by simpa using htag₂, ?_⟩
    rw [List.flatMap_cons, normalize_append (by simp [endsCr_attribute hfirst])]
    exact run_append hrun₁ hrun₂

theorem run_start {name : String} {attributes : List Attribute} (hname : nameOk name = true)
    (hspecial : name ∉ specialNames) (hok : ∀ a ∈ attributes, a.Ok) :
    run ⟨.data, none⟩ (normalize (Item.start name attributes).render) =
      some (⟨.data, none⟩, (Item.start name attributes).tokens) := by
  obtain ⟨c, cs, hchars, hlower, hc, hcs⟩ := nameOk_cases hname
  obtain ⟨-, -, hslash, -, -⟩ := ne_of_isNameChar hc
  have hless : step ⟨.data, none⟩ '<' = some (⟨.tagOpen, none⟩, []) := rfl
  have hfirst : step ⟨.tagOpen, none⟩ c = some (⟨.tagName [c], none⟩, []) := by
    simp [step, modeStep, hslash, hlower]
  have hopen : run ⟨.data, none⟩ ('<' :: name.toList) =
      some (⟨.tagName name.toList, none⟩, []) := by
    rw [hchars]
    exact run_cons hless (run_cons hfirst (run_name tagName_step [c] hcs))
  obtain ⟨m, htag, hrun⟩ := run_attributes hok (m := .tagName name.toList) rfl
  rw [String.ofList_toList, List.nil_append] at htag
  have hclose : run ⟨m, none⟩ ['>'] =
      some (⟨.data, none⟩, [.start ⟨name, attributes.map Attribute.read⟩]) := by
    simp [run, step_close htag, emitStart, hspecial]
  have hcr : '\r' ∉ '<' :: name.toList := by simpa using not_mem_of_nameOk hname
  have hrender : (Item.start name attributes).render =
      ('<' :: name.toList) ++ (attributes.flatMap Attribute.render ++ ['>']) := by
    simp [Item.render]
  rw [hrender, normalize_append_of_not_mem hcr, normalize_append (by simp)]
  exact run_append hopen (run_append hrun hclose)

theorem run_stop {name : String} (hname : nameOk name = true) :
    run ⟨.data, none⟩ (normalize (Item.stop name).render) =
      some (⟨.data, none⟩, (Item.stop name).tokens) := by
  obtain ⟨c, cs, hchars, hlower, hc, hcs⟩ := nameOk_cases hname
  have hless : step ⟨.data, none⟩ '<' = some (⟨.tagOpen, none⟩, []) := rfl
  have hslash : step ⟨.tagOpen, none⟩ '/' = some (⟨.endTagOpen, none⟩, []) := rfl
  have hfirst : step ⟨.endTagOpen, none⟩ c = some (⟨.endTagName [c], none⟩, []) := by
    simp [step, modeStep, hlower]
  have hopen : run ⟨.data, none⟩ ('<' :: '/' :: name.toList) =
      some (⟨.endTagName name.toList, none⟩, []) := by
    rw [hchars]
    exact run_cons hless (run_cons hslash (run_cons hfirst (run_name endTagName_step [c] hcs)))
  have hclose : run ⟨.endTagName name.toList, none⟩ ['>'] =
      some (⟨.data, none⟩, [.stop name]) := by
    simp [run, step, modeStep]
  have hcr : '\r' ∉ ('<' :: '/' :: name.toList) ++ ['>'] := by
    simpa using not_mem_of_nameOk hname
  have hrender : (Item.stop name).render = ('<' :: '/' :: name.toList) ++ ['>'] := rfl
  rw [hrender, normalize_of_not_mem hcr]
  exact run_append hopen hclose

/-! ### Whole pages -/

theorem run_value (text : String) : run ⟨.data, none⟩ (normalize (Item.value text).render) =
    some (⟨.data, none⟩, (Item.value text).tokens) := by
  rw [Item.render, normalize_escape, run_escape_data, Item.tokens, shownText, String.toList_ofList]

theorem run_own {text : String} (h : literal text = true) :
    run ⟨.data, none⟩ (normalize (Item.own text).render) =
      some (⟨.data, none⟩, (Item.own text).tokens) := by
  obtain ⟨hcr, hnul⟩ := literal_chars h
  have hrun := run_escape_data text.toList
  have hfilter : (text.toList.filter fun c => c ≠ nul) = text.toList := by
    refine List.filter_eq_self.mpr fun c hc => decide_eq_true ?_
    rintro rfl
    exact hnul hc
  rw [escape_of_literal h, hfilter] at hrun
  rw [Item.render, normalize_of_not_mem hcr]
  exact hrun

theorem head_render {items : List Item} (h : startsOnLine items = true) :
    (render items).head? ≠ some '\n' := by
  cases items with
  | nil => simp [render]
  | cons item items =>
    cases item with
    | start name attributes | stop name => simp [render, Item.render]
    | own text =>
      rw [startsOnLine, Option.any_eq_true] at h
      obtain ⟨c, hc, hne⟩ := h
      have hhead : (render (.own text :: items)).head? = some c := by
        rw [render, List.flatMap_cons, List.head?_append, Item.render, hc]
        rfl
      rw [hhead, Ne, Option.some_inj]
      exact of_decide_eq_true hne
    | value text => cases h

/-- One item after the other. -/
theorem run_item {item : Item} {items : List Item}
    (hitem : run ⟨.data, none⟩ (normalize item.render) = some (⟨.data, none⟩, item.tokens))
    (hend : endsCr false item.render = true → (render items).head? ≠ some '\n')
    (h : run ⟨.data, none⟩ (normalize (render items)) = some (⟨.data, none⟩, tokens items)) :
    run ⟨.data, none⟩ (normalize (render (item :: items))) =
      some (⟨.data, none⟩, tokens (item :: items)) := by
  show run _ (normalize (item.render ++ render items)) = _
  rw [normalize_append hend]
  exact run_append hitem h

/-- The tokenizer reads a page as it is meant. -/
theorem run_render {items : List Item} (h : WellFormed items) :
    run ⟨.data, none⟩ (normalize (render items)) = some (⟨.data, none⟩, tokens items) := by
  induction items with
  | nil => rfl
  | cons item items ih =>
    cases item with
    | start name attributes =>
      obtain ⟨hname, hspecial, hok, hrest⟩ := h
      refine run_item (run_start hname hspecial hok) ?_ (ih hrest)
      have hrender : (Item.start name attributes).render =
          ('<' :: (name.toList ++ attributes.flatMap Attribute.render)) ++ ['>'] := by
        simp [Item.render]
      rw [hrender, endsCr_append]
      exact nofun
    | stop name =>
      obtain ⟨hname, hrest⟩ := h
      refine run_item (run_stop hname) ?_ (ih hrest)
      have hrender : (Item.stop name).render = ('<' :: '/' :: name.toList) ++ ['>'] := rfl
      rw [hrender, endsCr_append]
      exact nofun
    | own text =>
      obtain ⟨htext, hrest⟩ := h
      refine run_item (run_own htext) ?_ (ih hrest)
      have hend : endsCr false (Item.own text).render = false :=
        endsCr_of_not_mem (literal_chars htext).1
      simp [hend]
    | value text =>
      obtain ⟨hline, hrest⟩ := h
      exact run_item (run_value text) (fun _ => head_render hline) (ih hrest)

theorem readPage_eq {items : List Item} {page : String} (h : WellFormed items)
    (hpage : page.toList = render items) : readPage page = some (tokens items) := by
  rw [readPage, hpage, run_render h]

end Runs

/-! ## What a page shows -/

def leadingText : List Token → List Char
  | .char c :: ts => c :: leadingText ts
  | _ => []

/-- The texts at the beginning of the elements of a class. -/
def textsOf (cls : String) : List Token → List String
  | [] => []
  | .start tag :: ts =>
    if tag.attributes.lookup "class" = some cls then
      String.ofList (leadingText ts) :: textsOf cls ts
    else textsOf cls ts
  | _ :: ts => textsOf cls ts

/-- The values of an attribute. -/
def valuesOf (name : String) : List Token → List String
  | [] => []
  | .start tag :: ts => (tag.attributes.lookup name).toList ++ valuesOf name ts
  | _ :: ts => valuesOf name ts

/-- A token without the text and the values. -/
def Token.markup : Token → Option Token
  | .start tag => some (.start ⟨tag.name, tag.attributes.map fun a => (a.1, "")⟩)
  | .stop name => some (.stop name)
  | .char _ => none

def Attribute.blank : Attribute → Attribute
  | .flag name => .flag name
  | .quoted name own _ => .quoted name own

/-- An item without the values that it has. -/
def Item.blank : Item → Item
  | .start name attributes => .start name (attributes.map Attribute.blank)
  | .stop name => .stop name
  | .own text => .own text
  | .value _ => .value ""

section Shown

variable {cls name text : String} {attributes : List Attribute} {items : List Item}

@[simp] theorem leadingText_nil : leadingText [] = [] := rfl

@[simp] theorem leadingText_start :
    leadingText (tokens (.start name attributes :: items)) = [] := rfl

@[simp] theorem leadingText_stop : leadingText (tokens (.stop name :: items)) = [] := rfl

theorem leadingText_chars (cs : List Char) (ts : List Token) :
    leadingText (cs.map .char ++ ts) = cs ++ leadingText ts := by
  induction cs with
  | nil => rfl
  | cons c cs ih => simp [leadingText, ih]

@[simp] theorem leadingText_own :
    leadingText (tokens (.own text :: items)) = text.toList ++ leadingText (tokens items) :=
  leadingText_chars _ _

@[simp] theorem leadingText_value : leadingText (tokens (.value text :: items)) =
    (shownText text).toList ++ leadingText (tokens items) :=
  leadingText_chars _ _

@[simp] theorem textsOf_start : textsOf cls (tokens (.start name attributes :: items)) =
    (if (attributes.map Attribute.read).lookup "class" = some cls then
      [String.ofList (leadingText (tokens items))] else []) ++ textsOf cls (tokens items) := by
  show (if _ then _ else _) = _
  split_ifs <;> rfl

@[simp] theorem textsOf_stop :
    textsOf cls (tokens (.stop name :: items)) = textsOf cls (tokens items) := rfl

theorem textsOf_chars (cs : List Char) (ts : List Token) :
    textsOf cls (cs.map .char ++ ts) = textsOf cls ts := by
  induction cs with
  | nil => rfl
  | cons c cs ih => exact ih

@[simp] theorem textsOf_own :
    textsOf cls (tokens (.own text :: items)) = textsOf cls (tokens items) := textsOf_chars _ _

@[simp] theorem textsOf_value :
    textsOf cls (tokens (.value text :: items)) = textsOf cls (tokens items) := textsOf_chars _ _

@[simp] theorem valuesOf_start : valuesOf cls (tokens (.start name attributes :: items)) =
    ((attributes.map Attribute.read).lookup cls).toList ++ valuesOf cls (tokens items) := rfl

@[simp] theorem valuesOf_stop :
    valuesOf cls (tokens (.stop name :: items)) = valuesOf cls (tokens items) := rfl

theorem valuesOf_chars (cs : List Char) (ts : List Token) :
    valuesOf cls (cs.map .char ++ ts) = valuesOf cls ts := by
  induction cs with
  | nil => rfl
  | cons c cs ih => exact ih

@[simp] theorem valuesOf_own :
    valuesOf cls (tokens (.own text :: items)) = valuesOf cls (tokens items) := valuesOf_chars _ _

@[simp] theorem valuesOf_value :
    valuesOf cls (tokens (.value text :: items)) = valuesOf cls (tokens items) :=
  valuesOf_chars _ _

@[simp] theorem shownValue_empty : shownValue "" = "" := rfl

/-! ### Values and markup -/

theorem Attribute.Ok.blank {attr : Attribute} (h : attr.Ok) : attr.blank.Ok := by
  cases attr <;> exact h

theorem startsOnLine_blank (items : List Item) :
    startsOnLine (items.map Item.blank) = startsOnLine items := by
  cases items with
  | nil => rfl
  | cons item items => cases item <;> rfl

theorem WellFormed.blank (h : WellFormed items) : WellFormed (items.map Item.blank) := by
  induction items with
  | nil => trivial
  | cons item items ih =>
    cases item with
    | start name attributes =>
      obtain ⟨hname, hspecial, hok, hrest⟩ := h
      refine ⟨hname, hspecial, fun a ha => ?_, ih hrest⟩
      obtain ⟨b, hb, rfl⟩ := List.mem_map.mp ha
      exact (hok b hb).blank
    | stop name | own text => exact ⟨h.1, ih h.2⟩
    | value text => exact ⟨(startsOnLine_blank items).trans h.1, ih h.2⟩

theorem markup_item (item : Item) :
    item.tokens.filterMap Token.markup = item.blank.tokens.filterMap Token.markup := by
  have hchars : ∀ cs : List Char, (cs.map Token.char).filterMap Token.markup = [] := by
    intro cs
    rw [List.filterMap_map]
    exact List.filterMap_eq_nil_iff.mpr fun _ _ => rfl
  cases item with
  | start name attributes =>
    have hattr : ∀ a : Attribute, (a.read.1, "") = (a.blank.read.1, "") := by
      intro a
      cases a <;> rfl
    simp only [Item.blank, Item.tokens, List.filterMap_cons, List.filterMap_nil, Token.markup,
      List.map_map]
    congr 4
    exact funext hattr
  | stop name | own text => rfl
  | value text => simp only [Item.blank, Item.tokens, hchars]

/-- The markup of a page does not depend on its values. -/
theorem markup_blank (items : List Item) :
    (tokens items).filterMap Token.markup =
      (tokens (items.map Item.blank)).filterMap Token.markup := by
  induction items with
  | nil => rfl
  | cons item items ih =>
    simp only [tokens, List.map_cons, List.flatMap_cons, List.filterMap_append] at ih ⊢
    rw [markup_item, ih]

end Shown

end Markup
