import Weaving.Proofs.RegexMeaning

/-
Texts of regular expressions.  What an engine documents of the parts that patterns use is said of the
parts and of texts in which one part follows another: where in a name such a text takes which stretch.
The engine for a part of the language reads these texts part by part, so it is as documented.
-/
namespace Weaving

namespace RegexEngine

/-- Texts made of the anchors, of a dot with a star, and of texts that stand for themselves. -/
inductive Joined (engine : RegexEngine) : String → Prop where
  | start : Joined engine "^"
  | finish : Joined engine "$"
  | anything : Joined engine ".*"
  | quoted (text : String) : Joined engine (engine.escape text)
  | append {first second : String} (left : Joined engine first) (right : Joined engine second) :
      Joined engine (first ++ second)

/-- What an engine documents: its expressions take stretches of a text, between what stands before and
what stands after, as `takes` says. -/
structure Documented (engine : RegexEngine) (takes : String → String → String → String → Prop) :
    Prop where
  /-- An expression is found in the texts of which it takes a stretch. -/
  found : ∀ {expression : String} {regex : Regex}, engine.compile expression = some regex →
    ∀ s, regex.accepts s = true ↔
      ∃ before stretch after, s = before ++ (stretch ++ after) ∧ takes expression before stretch after
  /-- The start of the text. -/
  start : ∀ {before stretch after : String},
    takes "^" before stretch after ↔ before = "" ∧ stretch = ""
  /-- The end of the text. -/
  finish : ∀ {before stretch after : String},
    takes "$" before stretch after ↔ stretch = "" ∧ after = ""
  /-- Any characters but line feeds. -/
  anything : ∀ {before stretch after : String},
    takes ".*" before stretch after ↔ '\n' ∉ stretch.toList
  /-- An escaped text stands for itself. -/
  quoted : ∀ {text before stretch after : String},
    takes (engine.escape text) before stretch after ↔ stretch = text
  /-- One part after the other. -/
  sequence : ∀ {first second : String}, Joined engine first → Joined engine second →
    ∀ {before stretch after : String}, takes (first ++ second) before stretch after ↔
      ∃ u v, stretch = u ++ v ∧ takes first before u (v ++ after) ∧ takes second (before ++ u) v after

end RegexEngine

namespace RegexBody

/-! ### Reading joined texts -/

/-- Atoms may be read next, and letters match in their own case. -/
def Reading.Ready (r : Reading) : Prop := (r.mode = .plain ∨ r.mode = .repetition) ∧ r.foldCase = false

/-- A text is read as some atoms wherever atoms may be read, and is no group. -/
structure ReadsAs (text : List Char) (atoms : List RegexBody) : Prop where
  /-- The atoms are added to those read before. -/
  read : ∀ {r : Reading}, r.Ready → ∃ r' : Reading, text.foldlM Reading.step r = some r' ∧ r'.Ready ∧
    r'.outer = r.outer ∧ r'.group = ⟨r.group.finished, atoms.reverse ++ r.group.atoms⟩
  /-- The text does not begin with a parenthesis. -/
  noGroup : text.head? ≠ some '('

namespace ReadsAs

theorem nil : ReadsAs [] [] :=
  ⟨fun {r} hr => ⟨r, rfl, hr, rfl, rfl⟩, nofun⟩

theorem append {text text' : List Char} {atoms atoms' : List RegexBody} (h : ReadsAs text atoms)
    (h' : ReadsAs text' atoms') : ReadsAs (text ++ text') (atoms ++ atoms') := by
  refine ⟨fun {r} hr => ?_, ?_⟩
  · obtain ⟨r', hread, hr', houter, hgroup⟩ := h.read hr
    obtain ⟨r'', hread', hr'', houter', hgroup'⟩ := h'.read hr'
    refine ⟨r'', ?_, hr'', houter'.trans houter, ?_⟩
    · rw [List.foldlM_append, hread]
      exact hread'
    · rw [hgroup', hgroup]
      simp
  · cases text with
    | nil => exact h'.noGroup
    | cons c text => exact h.noGroup

/-- A character that starts an atom is read the same whether or not a repetition stands before it. -/
theorem of_step {c : Char} {atom : RegexBody} (hgroup : c ≠ '(') (hlazy : c ≠ '?')
    (hstep : ∀ r : Reading, r.foldCase = false → r.stepPlain c = some (r.push atom)) :
    ReadsAs [c] [atom] := by
  refine ⟨fun {r} hr => ⟨r.push atom, ?_, ⟨.inl rfl, hr.2⟩, rfl, rfl⟩, by simpa using hgroup⟩
  rcases hr with ⟨hmode | hmode, hfold⟩
  · simp [Reading.step, hmode, hstep r hfold]
  · simp [Reading.step, hmode, hlazy, hstep r hfold]

theorem start : ReadsAs ['^'] [.start] := of_step (by decide) (by decide) fun _ _ => rfl

theorem finish : ReadsAs ['$'] [.finish] := of_step (by decide) (by decide) fun _ _ => rfl

theorem anything : ReadsAs ['.', '*'] [.star (.one ⟨[('\n', '\n')], true, false⟩)] := by
  refine ⟨fun {r} hr => ?_, nofun⟩
  refine ⟨{ r.push (.star (.one ⟨[('\n', '\n')], true, false⟩)) with mode := .repetition }, ?_,
    ⟨.inr rfl, hr.2⟩, rfl, rfl⟩
  have hdot : r.step '.' = some (r.push (.one ⟨[('\n', '\n')], true, false⟩)) := by
    rcases hr with ⟨hmode | hmode, -⟩ <;> simp [Reading.step, hmode, Reading.stepPlain]
  rw [List.foldlM_cons, hdot]
  rfl

/-- A quoted character stands for itself. -/
theorem quote (c : Char) : ReadsAs (RegexEngine.quote c) [.one ⟨[(c, c)], false, false⟩] := by
  rw [RegexEngine.quote]
  split
  · rename_i hmeta
    have hescapable : ∀ c ∈ RegexEngine.metaCharacters, Reading.isEscapable c = true :=
      List.all_eq_true.mp rfl
    refine ⟨fun {r} hr => ⟨r.push (.one ⟨[(c, c)], false, false⟩), ?_, ⟨.inl rfl, hr.2⟩, rfl, rfl⟩,
      by simp⟩
    rcases hr with ⟨hmode | hmode, hfold⟩ <;>
      simp [Reading.step, hmode, Reading.stepPlain, hescapable c hmeta, Reading.literal, hfold,
        Reading.push]
  · rename_i hplain
    simp only [RegexEngine.metaCharacters, List.mem_cons, not_or] at hplain
    refine of_step (by simp [hplain]) (by simp [hplain]) fun r hfold => ?_
    simp [Reading.stepPlain, hplain, Reading.literal, hfold]

theorem quotes (text : List Char) : ReadsAs (text.flatMap RegexEngine.quote)
    (text.map fun c => .one ⟨[(c, c)], false, false⟩) := by
  induction text with
  | nil => exact nil
  | cons c text ih => exact (quote c).append ih

/-- So does an escaped text. -/
theorem escape (text : String) : ReadsAs (RegexEngine.simple.escape text).toList
    (text.toList.map fun c => .one ⟨[(c, c)], false, false⟩) := by
  rw [RegexEngine.simple, String.toList_ofList]
  exact quotes text.toList

/-- Every joined text is read as some atoms. -/
theorem of_joined {text : String} (h : RegexEngine.simple.Joined text) :
    ∃ atoms, ReadsAs text.toList atoms := by
  induction h with
  | start => exact ⟨_, start⟩
  | finish => exact ⟨_, finish⟩
  | anything => exact ⟨_, anything⟩
  | quoted text => exact ⟨_, escape text⟩
  | append left right ihl ihr =>
      obtain ⟨atoms, hleft⟩ := ihl
      obtain ⟨atoms', hright⟩ := ihr
      exact ⟨_, String.toList_append ▸ hleft.append hright⟩

/-- What is read of a text is its atoms in order. -/
theorem read?_eq {text : String} {atoms : List RegexBody} (h : ReadsAs text.toList atoms) :
    read? text = some (atoms.foldr .seq .empty) := by
  have hready : Reading.Ready ⟨.opened, [], .plain, false⟩ := ⟨.inl rfl, rfl⟩
  obtain ⟨r, hread, ⟨hmode, -⟩, houter, hgroup⟩ := h.read hready
  have hbody : r.group.body = atoms.foldr .seq .empty := by
    simp [hgroup, Group.opened, Group.body, Group.current, List.foldl_reverse]
  have hcase : ¬ text.toList.take 4 = ['(', '?', 'i', ')'] := by
    intro htake
    refine h.noGroup ?_
    rw [← List.take_append_drop 4 text.toList, htake]
    rfl
  simp only [read?, hcase, decide_false, if_false, hread]
  rcases hmode with hmode | hmode <;> simp [Reading.finished?, hmode, houter, hbody]

end ReadsAs

variable {atStart atEnd : Bool} {s : List Char}

/-- A set of one character has that character only. -/
theorem has_character_iff {c d : Char} : CharSet.has ⟨[(c, c)], false, false⟩ d = true ↔ d = c := by
  simp only [CharSet.has, CharSet.inRanges, List.any_cons, List.any_nil, Bool.or_false,
    Bool.false_eq_true, if_false, Bool.bne_false, Bool.and_eq_true, decide_eq_true_eq]
  exact ⟨fun h => Char.le_antisymm h.2 h.1, fun h => h ▸ ⟨Char.le_refl _, Char.le_refl _⟩⟩

theorem has_other_iff {c d : Char} : CharSet.has ⟨[(c, c)], true, false⟩ d = true ↔ d ≠ c := by
  rw [ne_eq, ← has_character_iff]
  simp [CharSet.has]

/-- Atoms in order take what the first ones and then the others take. -/
theorem covers_foldr_append_iff {atoms atoms' : List RegexBody} :
    Covers ((atoms ++ atoms').foldr .seq .empty) atStart s atEnd ↔
      Covers (.seq (atoms.foldr .seq .empty) (atoms'.foldr .seq .empty)) atStart s atEnd := by
  induction atoms generalizing atStart s atEnd with
  | nil => simp [covers_seq_iff (a := .empty), covers_empty_iff]
  | cons atom atoms ih =>
      rw [List.foldr_cons, covers_seq_assoc, List.cons_append, List.foldr_cons, covers_seq_iff,
        covers_seq_iff (a := atom)]
      simp only [ih]

theorem covers_foldr_singleton_iff {atom : RegexBody} :
    Covers ([atom].foldr .seq .empty) atStart s atEnd ↔ Covers atom atStart s atEnd := by
  simp [covers_seq_iff, covers_empty_iff]

/-- Characters in order take the text they make. -/
theorem covers_characters_iff {text : List Char} :
    Covers ((text.map fun c => RegexBody.one ⟨[(c, c)], false, false⟩).foldr .seq .empty) atStart s
      atEnd ↔ s = text := by
  induction text generalizing atStart s with
  | nil => exact covers_empty_iff
  | cons c text ih =>
      rw [List.map_cons, List.foldr_cons, covers_seq_iff]
      simp only [ih, covers_one_iff, has_character_iff]
      constructor
      · rintro ⟨u, v, rfl, ⟨d, rfl, rfl⟩, rfl⟩
        rfl
      · rintro rfl
        exact ⟨[c], text, rfl, ⟨c, rfl, rfl⟩, rfl⟩

end RegexBody

namespace RegexEngine

open RegexBody (ReadsAs Covers read?)

/-- The stretches that an expression of the simple engine takes. -/
def simpleTakes (expression before stretch after : String) : Prop :=
  ∃ body, read? expression = some body ∧
    Covers body before.toList.isEmpty stretch.toList after.toList.isEmpty

theorem simpleTakes_iff {expression before stretch after : String} {atoms : List RegexBody}
    (h : ReadsAs expression.toList atoms) :
    simpleTakes expression before stretch after ↔
      Covers (atoms.foldr .seq .empty) before.toList.isEmpty stretch.toList after.toList.isEmpty := by
  simp [simpleTakes, h.read?_eq]

/-- Every joined text compiles. -/
theorem simple_compiles {expression : String} (h : simple.Joined expression) :
    ∃ regex, simple.compile expression = some regex := by
  obtain ⟨atoms, hreads⟩ := ReadsAs.of_joined h
  exact ⟨_, by simp [simple, hreads.read?_eq]; rfl⟩

/-- The simple engine is as documented. -/
theorem simple_documented : simple.Documented simpleTakes where
  found := by
    intro expression regex hcompile s
    obtain ⟨body, hread, rfl⟩ := Option.map_eq_some_iff.mp hcompile
    refine RegexBody.search_iff.trans ?_
    simp only [simpleTakes, hread, Option.some.injEq, exists_eq_left']
    constructor
    · rintro ⟨before, stretch, after, hs, hcovers⟩
      refine ⟨.ofList before, .ofList stretch, .ofList after, ?_, by simpa using hcovers⟩
      rw [← String.ofList_append, ← String.ofList_append, ← hs, String.ofList_toList]
    · rintro ⟨before, stretch, after, rfl, hcovers⟩
      exact ⟨before.toList, stretch.toList, after.toList, by simp, hcovers⟩
  start := by
    intro before stretch after
    have hreads : ReadsAs "^".toList [.start] := ReadsAs.start
    rw [simpleTakes_iff hreads, RegexBody.covers_foldr_singleton_iff, RegexBody.covers_start_iff]
    simp [and_comm]
  finish := by
    intro before stretch after
    have hreads : ReadsAs "$".toList [.finish] := ReadsAs.finish
    rw [simpleTakes_iff hreads, RegexBody.covers_foldr_singleton_iff, RegexBody.covers_finish_iff]
    simp
  anything := by
    intro before stretch after
    have hreads : ReadsAs ".*".toList _ := ReadsAs.anything
    rw [simpleTakes_iff hreads, RegexBody.covers_foldr_singleton_iff,
      RegexBody.covers_star_one_iff]
    simp only [RegexBody.has_other_iff]
    exact ⟨fun h hmem => h _ hmem rfl, fun h c hc => ne_of_mem_of_not_mem hc h⟩
  quoted := by
    intro text before stretch after
    rw [simpleTakes_iff (ReadsAs.escape text), RegexBody.covers_characters_iff, String.toList_inj]
  sequence := by
    intro first second hfirst hsecond before stretch after
    obtain ⟨atoms, hreads⟩ := ReadsAs.of_joined hfirst
    obtain ⟨atoms', hreads'⟩ := ReadsAs.of_joined hsecond
    rw [simpleTakes_iff (String.toList_append ▸ hreads.append hreads'),
      RegexBody.covers_foldr_append_iff, RegexBody.covers_seq_iff]
    simp only [simpleTakes_iff hreads, simpleTakes_iff hreads', String.toList_append,
      RegexBody.isEmpty_append]
    constructor
    · rintro ⟨u, v, hs, hu, hv⟩
      refine ⟨.ofList u, .ofList v, ?_, by simpa [Bool.and_comm] using hu, by simpa using hv⟩
      rw [← String.ofList_append, ← hs, String.ofList_toList]
    · rintro ⟨u, v, rfl, hu, hv⟩
      exact ⟨u.toList, v.toList, String.toList_append, by simpa [Bool.and_comm] using hu, hv⟩

end RegexEngine

end Weaving
