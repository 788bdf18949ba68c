import Mathlib.Data.List.Forall2
import Mathlib.Data.List.Infix

/-!
# Wildcard patterns with an escape symbol

The patterns of `LIKE … ESCAPE`: one symbol stands for any sequence, one for any single symbol, and
an escape makes the symbol after it literal. Literal symbols are compared as a collation compares
them. A backtracking matcher, and the escaping of a text by successive replacements, under which a
pattern finds the text itself and nothing that it would stand for.
-/

namespace Like

variable {α : Type*}

/-- What one place of a pattern asks for. -/
inductive Token (α : Type*)
  | any
  | one
  | lit (x : α)

/-- The symbols of a pattern language. -/
structure Symbols (α : Type*) where
  any : α
  one : α
  escape : α
  any_ne_one : any ≠ one
  any_ne_escape : any ≠ escape
  one_ne_escape : one ≠ escape

/-- The matcher tries every rest of the text for a wildcard. -/
def accepts (same : α → α → Bool) : List (Token α) → List α → Bool
  | [], text => text.isEmpty
  | .any :: pattern, text => text.tails.any fun rest => accepts same pattern rest
  | .one :: _, [] => false
  | .one :: pattern, _ :: text => accepts same pattern text
  | .lit _ :: _, [] => false
  | .lit x :: pattern, y :: text => same x y && accepts same pattern text

/-! ## Parts of a text -/

section Parts

variable {same : α → α → Bool} {text q : List α}

def startsWith (same : α → α → Bool) : List α → List α → Bool
  | [], _ => true
  | _ :: _, [] => false
  | x :: q, y :: text => same x y && startsWith same q text

/-- A part of the text compares equal to `q`, symbol by symbol. -/
def contains (same : α → α → Bool) (q text : List α) : Bool := text.tails.any (startsWith same q)

theorem startsWith_iff : startsWith same q text = true ↔
    ∃ part, part <+: text ∧ List.Forall₂ (fun x y => same x y = true) q part := by
  induction q generalizing text with
  | nil => exact iff_of_true rfl ⟨[], List.nil_prefix, .nil⟩
  | cons x q ih =>
    cases text with
    | nil =>
      refine iff_of_false Bool.false_ne_true ?_
      rintro ⟨part, hpart, hsame⟩
      rw [List.prefix_nil.mp hpart] at hsame
      cases hsame
    | cons y text =>
      rw [startsWith, Bool.and_eq_true, ih]
      constructor
      · rintro ⟨hxy, part, hpart, hsame⟩
        exact ⟨y :: part, List.prefix_cons_inj y |>.mpr hpart, .cons hxy hsame⟩
      · rintro ⟨part, hpart, hsame⟩
        cases hsame with
        | cons hxy hsame =>
          obtain ⟨rfl, htail⟩ := List.cons_prefix_cons.mp hpart
          exact ⟨hxy, _, htail, hsame⟩

theorem contains_iff : contains same q text = true ↔
    ∃ part, part <:+: text ∧ List.Forall₂ (fun x y => same x y = true) q part := by
  rw [contains, List.any_eq_true]
  constructor
  · rintro ⟨rest, hrest, hstarts⟩
    obtain ⟨part, hpart, hsame⟩ := startsWith_iff.mp hstarts
    exact ⟨part, hpart.isInfix.trans ((List.mem_tails _ _).mp hrest).isInfix, hsame⟩
  · rintro ⟨part, hpart, hsame⟩
    obtain ⟨rest, hprefix, hsuffix⟩ := List.infix_iff_prefix_suffix.mp hpart
    exact ⟨rest, (List.mem_tails _ _).mpr hsuffix, startsWith_iff.mpr ⟨part, hprefix, hsame⟩⟩

/-- A pattern that ends with a wildcard does not look at the rest. -/
theorem accepts_lits (q text : List α) :
    accepts same (q.map Token.lit ++ [.any]) text = startsWith same q text := by
  induction q generalizing text with
  | nil =>
    refine List.any_eq_true.mpr ⟨[], (List.mem_tails _ _).mpr List.nil_suffix, rfl⟩
  | cons x q ih =>
    cases text with
    | nil => rfl
    | cons y text => rw [List.map_cons, List.cons_append, accepts, ih, startsWith]

/-- Literals between two wildcards look for a part. -/
theorem accepts_contains (q text : List α) :
    accepts same (.any :: (q.map Token.lit ++ [.any])) text = contains same q text := by
  rw [accepts, contains]
  exact congrArg (List.any text.tails) (funext fun rest => accepts_lits q rest)

end Parts

/-! ## Patterns -/

variable [DecidableEq α]

/-- A symbol without an escape before it. -/
def token (w : Symbols α) (x : α) : Token α :=
  if x = w.any then .any else if x = w.one then .one else .lit x

/-- An escape at the end of a pattern stands for itself. -/
def tokens (w : Symbols α) : List α → List (Token α)
  | [] => []
  | [x] => [token w x]
  | x :: y :: pattern =>
    if x = w.escape then .lit y :: tokens w pattern else token w x :: tokens w (y :: pattern)

/-- `text LIKE pattern ESCAPE escape` -/
def like (same : α → α → Bool) (w : Symbols α) (text pattern : List α) : Bool :=
  accepts same (tokens w pattern) text

/-- Symbols that are compared for equality make a contiguous part. -/
theorem contains_eq_iff {q text : List α} :
    contains (fun x y => decide (x = y)) q text = true ↔ q <:+: text := by
  simp only [contains_iff, decide_eq_true_eq, List.forall₂_eq_eq_eq]
  exact ⟨fun ⟨_, hpart, heq⟩ => heq ▸ hpart, fun h => ⟨q, h, rfl⟩⟩

/-! ## Escaping -/

section Escape

variable {w : Symbols α} {x : α}

/-- Every occurrence of a symbol is replaced. -/
def replace (x : α) (new text : List α) : List α := text.flatMap fun y => if y = x then new else [y]

/-- The symbols that a pattern does not take literally. -/
def Special (w : Symbols α) (x : α) : Prop := x = w.escape ∨ x = w.any ∨ x = w.one

instance (w : Symbols α) (x : α) : Decidable (Special w x) :=
  inferInstanceAs (Decidable (x = w.escape ∨ x = w.any ∨ x = w.one))

/-- An escape before every special symbol. -/
def escaped (w : Symbols α) (text : List α) : List α :=
  text.flatMap fun x => if Special w x then [w.escape, x] else [x]

/-- The escape has to be replaced first: the other two replacements write escapes of their own. -/
def escapeText (w : Symbols α) (text : List α) : List α :=
  replace w.one [w.escape, w.one] (replace w.any [w.escape, w.any]
    (replace w.escape [w.escape, w.escape] text))

theorem replace_flatMap (x : α) (new : List α) (f : α → List α) (text : List α) :
    replace x new (text.flatMap f) = text.flatMap fun y => replace x new (f y) :=
  List.flatMap_assoc

theorem replace_of_not_mem {new text : List α} (h : x ∉ text) : replace x new text = text := by
  induction text with
  | nil => rfl
  | cons y text ih =>
    rw [List.mem_cons, not_or] at h
    rw [replace, List.flatMap_cons, if_neg (Ne.symm h.1)]
    exact congrArg (y :: ·) (ih h.2)

theorem replace_singleton_self (x : α) (new : List α) : replace x new [x] = new := by
  rw [replace, List.flatMap_singleton, if_pos rfl]

theorem replace_singleton_of_ne {x y : α} (h : y ≠ x) (new : List α) : replace x new [y] = [y] :=
  replace_of_not_mem fun hmem => h (List.mem_singleton.mp hmem).symm

/-- The three replacements put one escape before every special symbol. -/
theorem escapeText_eq (w : Symbols α) (text : List α) : escapeText w text = escaped w text := by
  -- What one replacement writes has no symbol that a later one looks for.
  have hsymbol : ∀ y : α, replace w.one [w.escape, w.one] (replace w.any [w.escape, w.any]
      (if y = w.escape then [w.escape, w.escape] else [y])) =
      if Special w y then [w.escape, y] else [y] := by
    intro y
    by_cases hescape : y = w.escape
    · have hany : w.any ∉ [w.escape, w.escape] := by simp [w.any_ne_escape]
      have hone : w.one ∉ [w.escape, w.escape] := by simp [w.one_ne_escape]
      rw [if_pos hescape, replace_of_not_mem hany, replace_of_not_mem hone,
        if_pos (.inl hescape), hescape]
    · rw [if_neg hescape]
      by_cases hany : y = w.any
      · have hone : w.one ∉ [w.escape, w.any] := by
          simp [w.one_ne_escape, Ne.symm w.any_ne_one]
        rw [hany, replace_singleton_self, replace_of_not_mem hone, if_pos (.inr (.inl rfl))]
      · rw [replace_singleton_of_ne hany]
        by_cases hone : y = w.one
        · rw [hone, replace_singleton_self, if_pos (.inr (.inr rfl))]
        · have hspecial : ¬ Special w y := by
            rintro (h | h | h)
            · exact hescape h
            · exact hany h
            · exact hone h
          rw [replace_singleton_of_ne hone, if_neg hspecial]
  have hescape : replace w.escape [w.escape, w.escape] text =
      text.flatMap fun y => if y = w.escape then [w.escape, w.escape] else [y] := rfl
  rw [escapeText, hescape, replace_flatMap, replace_flatMap, escaped]
  exact List.flatMap_congr fun y _ => hsymbol y

theorem tokens_cons (h : x ≠ w.escape) (pattern : List α) :
    tokens w (x :: pattern) = token w x :: tokens w pattern := by
  cases pattern with
  | nil => rfl
  | cons y pattern => rw [tokens, if_neg h]

theorem tokens_escaped_append (q pattern : List α) :
    tokens w (escaped w q ++ pattern) = q.map Token.lit ++ tokens w pattern := by
  induction q with
  | nil => rfl
  | cons x q ih =>
    rw [escaped, List.flatMap_cons]
    by_cases hx : Special w x
    · rw [if_pos hx]
      change tokens w (w.escape :: x :: (escaped w q ++ pattern)) = _
      rw [tokens, if_pos rfl, ih]
      rfl
    · rw [if_neg hx]
      obtain ⟨hescape, hany, hone⟩ := not_or.mp hx |>.imp_right not_or.mp
      change tokens w (x :: (escaped w q ++ pattern)) = _
      rw [tokens_cons hescape, ih, token, if_neg hany, if_neg hone]
      rfl

/-- The escaped text between two wildcards matches what contains the text. -/
theorem like_escaped (same : α → α → Bool) (w : Symbols α) (text q : List α) :
    like same w text (w.any :: (escapeText w q ++ [w.any])) = contains same q text := by
  have hany : token w w.any = .any := if_pos rfl
  have htokens : tokens w (w.any :: (escapeText w q ++ [w.any])) =
      .any :: (q.map Token.lit ++ [.any]) := by
    rw [tokens_cons w.any_ne_escape, hany, escapeText_eq, tokens_escaped_append, tokens, hany]
  rw [like, htokens, accepts_contains]

end Escape

end Like
