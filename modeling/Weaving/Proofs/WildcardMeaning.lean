import Weaving.Pattern.Wildcard
import Weaving.Proofs.RegexTexts

/-
What wildcard patterns mean.  A pattern is cut into pieces at its stars, and it accepts the texts in
which the pieces stand one after the other with gaps between them that hold no line feed.  That is what
the expression of the pattern says by the documentation of its engine: the pieces, written so that they
stand for themselves, with any number of any characters between them, from the start of the text to
its end.
-/
namespace Weaving

namespace Wildcard

open RegexEngine (Joined Documented)

variable {engine : RegexEngine} {takes : String → String → String → String → Prop}

/-- What stands between the separators holds none. -/
theorem not_mem_of_mem_splitOn {c : Char} {text piece : List Char} (h : piece ∈ text.splitOn c) :
    c ∉ piece := by
  induction text generalizing piece with
  | nil =>
      obtain rfl := List.mem_singleton.mp h
      exact List.not_mem_nil
  | cons d text ih =>
      obtain ⟨first, rest, hpieces⟩ := List.exists_cons_of_ne_nil (List.splitOn_ne_nil c text)
      rw [List.splitOn_cons_eq_if_modifyHead, hpieces] at h
      rw [hpieces] at ih
      split at h
      · rcases List.mem_cons.mp h with rfl | h
        · exact List.not_mem_nil
        · exact ih h
      · rename_i hd
        rcases List.mem_cons.mp h with rfl | h
        · have hfirst := ih List.mem_cons_self
          simp only [List.mem_cons, not_or]
          exact ⟨fun hc => hd (by simp [hc]), hfirst⟩
        · exact ih (List.mem_cons_of_mem _ h)

theorem exists_pieces (text : String) : ∃ first rest, pieces text = first :: rest :=
  List.exists_cons_of_ne_nil (by simp [pieces, List.splitOn_ne_nil])

/-- The pieces of a pattern hold no star. -/
theorem star_not_mem_piece {text piece : String} (h : piece ∈ pieces text) : '*' ∉ piece.toList := by
  obtain ⟨chars, hchars, rfl⟩ := List.mem_map.mp h
  rw [String.toList_ofList]
  exact not_mem_of_mem_splitOn hchars

/-- With stars between them the pieces are the pattern again. -/
theorem intercalate_pieces (text : String) : "*".intercalate (pieces text) = text := by
  rw [← String.toList_inj, String.toList_intercalate, pieces, List.map_map]
  have hback : String.toList ∘ String.ofList = id := by
    funext chars
    exact String.toList_ofList
  rw [hback, List.map_id]
  exact List.intercalate_splitOn '*'

/-- A pattern is cut in one way only. -/
theorem pieces_intercalate {first : String} {rest : List String}
    (hplain : ∀ piece ∈ first :: rest, '*' ∉ piece.toList) :
    pieces ("*".intercalate (first :: rest)) = first :: rest := by
  rw [pieces, String.toList_intercalate]
  have hstars : ∀ chars ∈ (first :: rest).map String.toList, '*' ∉ chars := by
    simpa only [List.forall_mem_map] using hplain
  rw [show "*".toList = ['*'] from rfl, List.splitOn_intercalate '*' hstars (List.cons_ne_nil _ _)]
  simp

theorem joined_pieces (first : String) (rest : List String) :
    engine.Joined (".*".intercalate ((first :: rest).map engine.escape)) := by
  induction rest generalizing first with
  | nil => simpa using .quoted first
  | cons next rest ih =>
      rw [List.map_cons, List.map_cons, String.intercalate_cons_cons, ← List.map_cons]
      exact ((Joined.quoted first).append .anything).append (ih next)

/-- The pieces of a pattern take the texts in which they stand in order, with gaps between them. -/
theorem takes_pieces_iff (documented : engine.Documented takes) (first : String) (rest : List String)
    {before stretch after : String} :
    takes (".*".intercalate ((first :: rest).map engine.escape)) before stretch after ↔
      ∃ gaps : List String, gaps.length = rest.length ∧ (∀ gap ∈ gaps, '\n' ∉ gap.toList) ∧
        stretch = first ++ String.join (List.zipWith (· ++ ·) gaps rest) := by
  induction rest generalizing first before stretch with
  | nil =>
      rw [List.map_singleton, String.intercalate_singleton, documented.quoted]
      constructor
      · rintro rfl
        exact ⟨[], rfl, nofun, by simp⟩
      · rintro ⟨gaps, -, -, rfl⟩
        simp
  | cons next rest ih =>
      have hfirst : engine.Joined (engine.escape first ++ ".*") := (Joined.quoted first).append .anything
      rw [List.map_cons, List.map_cons, String.intercalate_cons_cons, ← List.map_cons,
        documented.sequence hfirst (joined_pieces next rest)]
      simp only [ih, documented.sequence (.quoted first) .anything, documented.quoted,
        documented.anything]
      constructor
      · rintro ⟨_, _, rfl, ⟨_, gap, rfl, rfl, hgap⟩, gaps, hlength, hgaps, rfl⟩
        refine ⟨gap :: gaps, congrArg (· + 1) hlength, List.forall_mem_cons.mpr ⟨hgap, hgaps⟩, ?_⟩
        simp [String.append_assoc]
      · rintro ⟨gaps, hlength, hgaps, rfl⟩
        cases gaps with
        | nil => cases hlength
        | cons gap gaps =>
            obtain ⟨hgap, hgaps⟩ := List.forall_mem_cons.mp hgaps
            refine ⟨first ++ gap, next ++ String.join (List.zipWith (· ++ ·) gaps rest), ?_,
              ⟨first, gap, rfl, rfl, hgap⟩, gaps, Nat.succ.inj hlength, hgaps, rfl⟩
            simp [String.append_assoc]

/-- The expressions of patterns are joined texts, so the simple engine compiles all of them. -/
theorem simple_compiles_expression (text : String) :
    ∃ regex, RegexEngine.simple.compile (expression .simple text) = some regex := by
  obtain ⟨first, rest, hpieces⟩ := exists_pieces text
  rw [expression, hpieces]
  exact RegexEngine.simple_compiles ((Joined.start.append (joined_pieces first rest)).append .finish)

/-- The expression of a pattern is found in the texts that its pieces make up with gaps. -/
theorem found_expression_iff (documented : engine.Documented takes) {text first : String}
    {rest : List String} (hpieces : pieces text = first :: rest) {regex : Regex}
    (hcompile : engine.compile (expression engine text) = some regex) (s : String) :
    regex.accepts s = true ↔
      ∃ gaps : List String, gaps.length = rest.length ∧ (∀ gap ∈ gaps, '\n' ∉ gap.toList) ∧
        s = first ++ String.join (List.zipWith (· ++ ·) gaps rest) := by
  have hjoined : engine.Joined (".*".intercalate ((first :: rest).map engine.escape)) :=
    joined_pieces first rest
  rw [documented.found hcompile, expression, hpieces]
  simp only [documented.sequence (Joined.start.append hjoined) .finish,
    documented.sequence .start hjoined, documented.start, documented.finish,
    takes_pieces_iff documented]
  constructor
  · rintro ⟨before, stretch, after, rfl, _, _, rfl, ⟨_, _, rfl, ⟨rfl, rfl⟩, hgaps⟩, rfl, rfl⟩
    simpa using hgaps
  · intro hgaps
    exact ⟨"", s, "", by simp, s, "", by simp, ⟨"", s, by simp, ⟨rfl, rfl⟩, hgaps⟩, rfl, rfl⟩

/-- A lone star accepts every text.  A pattern without stars accepts itself.  Any other pattern is cut
into pieces at its stars; if the engine compiles its expression, it accepts the texts that consist of the
pieces in order, with gaps between them that hold no line feed, and if not, itself only. -/
theorem accepts_iff_pieces (engine : RegexEngine) (takes : String → String → String → String → Prop)
    (documented : engine.Documented takes) (text s : String) :
    (text = "*" → (ofText engine text).accepts s = true) ∧
    ('*' ∉ text.toList → ((ofText engine text).accepts s = true ↔ s = text)) ∧
    (text ≠ "*" → '*' ∈ text.toList → ∃ first rest,
      text = "*".intercalate (first :: rest) ∧ (∀ piece ∈ first :: rest, '*' ∉ piece.toList) ∧
      (∀ regex, engine.compile (expression engine text) = some regex →
        ((ofText engine text).accepts s = true ↔
          ∃ gaps : List String, gaps.length = rest.length ∧ (∀ gap ∈ gaps, '\n' ∉ gap.toList) ∧
            s = first ++ String.join (List.zipWith (· ++ ·) gaps rest))) ∧
      (engine.compile (expression engine text) = none →
        ((ofText engine text).accepts s = true ↔ s = text))) := by
  refine ⟨fun hlone => if_pos hlone, fun hplain => ?_, fun hlone hstar => ?_⟩
  · have hlone : text ≠ "*" := fun h => hplain (h ▸ List.mem_singleton_self _)
    simp [accepts, ofText, hlone, hplain, eq_comm]
  · obtain ⟨first, rest, hpieces⟩ := exists_pieces text
    refine ⟨first, rest, ?_, ?_, fun regex hcompile => ?_, fun hrefused => ?_⟩
    · rw [← hpieces, intercalate_pieces]
    · exact fun piece hpiece => star_not_mem_piece (hpieces ▸ hpiece)
    · rw [← found_expression_iff documented hpieces hcompile s]
      simp [accepts, ofText, hlone, hstar, hcompile]
    · simp [accepts, ofText, hlone, hstar, hrefused, eq_comm]

/-- A piece may stand more often in the text than in the pattern; and a lone star takes a line feed,
which two stars do not. -/
theorem accepts_iff_pieces_twice :
    (ofText .simple "*ab").accepts "abab" = true ∧ (ofText .simple "*").accepts "\n" = true ∧
      (ofText .simple "**").accepts "\n" = false := by
  have hmeaning := accepts_iff_pieces .simple RegexEngine.simpleTakes RegexEngine.simple_documented
  refine ⟨?_, (hmeaning "*" "\n").1 rfl, ?_⟩
  · obtain ⟨first, rest, htext, hplain, hcompiled, -⟩ :=
      (hmeaning "*ab" "abab").2.2 (by decide) (by decide)
    obtain ⟨rfl, rfl⟩ : "" = first ∧ ["ab"] = rest := by
      refine List.cons.inj ?_
      rw [← pieces_intercalate hplain, ← htext]
      decide
    exact (hcompiled _ rfl).mpr ⟨["ab"], rfl, by decide, rfl⟩
  · obtain ⟨first, rest, htext, hplain, hcompiled, -⟩ :=
      (hmeaning "**" "\n").2.2 (by decide) (by decide)
    obtain ⟨rfl, rfl⟩ : "" = first ∧ ["", ""] = rest := by
      refine List.cons.inj ?_
      rw [← pieces_intercalate hplain, ← htext]
      decide
    refine Bool.eq_false_iff.mpr fun haccepted => ?_
    obtain ⟨gaps, hlength, hgaps, hnewline⟩ := (hcompiled _ rfl).mp haccepted
    obtain ⟨one, two, rfl⟩ := List.length_eq_two.mp hlength
    have htext : ['\n'] = one.toList ++ two.toList := by simpa using congrArg String.toList hnewline
    have hmem : '\n' ∈ one.toList ++ two.toList := htext ▸ List.mem_singleton_self _
    rcases List.mem_append.mp hmem with hone | htwo
    · exact hgaps one (by simp) hone
    · exact hgaps two (by simp) htwo

end Wildcard

end Weaving
