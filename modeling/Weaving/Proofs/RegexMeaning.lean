import Mathlib.Data.List.Basic
import Weaving.Pattern.Regex

/-
What regular expressions mean.  `Covers` says which stretches of a text an expression takes, given
whether the stretch stands at the start of the whole text and whether it stands at its end.  The
matcher, which takes marks from places to places, keeps to this reading: it finds an expression in a text
exactly if the expression covers a stretch of it.
-/
namespace Weaving

namespace RegexBody

/-- An expression takes a stretch of text that stands at the start of the whole text, or not, and at
its end, or not. -/
inductive Covers : RegexBody → Bool → List Char → Bool → Prop where
  | empty {atStart atEnd : Bool} : Covers .empty atStart [] atEnd
  | one {set : CharSet} {c : Char} {atStart atEnd : Bool} (has : set.has c = true) :
      Covers (.one set) atStart [c] atEnd
  | start {atEnd : Bool} : Covers .start true [] atEnd
  | finish {atStart : Bool} : Covers .finish atStart [] true
  /-- The first part ends the text only if the second one takes nothing; likewise at the start. -/
  | seq {a b : RegexBody} {atStart atEnd : Bool} {s t : List Char}
      (first : Covers a atStart s (atEnd && t.isEmpty))
      (second : Covers b (atStart && s.isEmpty) t atEnd) : Covers (.seq a b) atStart (s ++ t) atEnd
  | left {a b : RegexBody} {atStart atEnd : Bool} {s : List Char} (h : Covers a atStart s atEnd) :
      Covers (.alt a b) atStart s atEnd
  | right {a b : RegexBody} {atStart atEnd : Bool} {s : List Char} (h : Covers b atStart s atEnd) :
      Covers (.alt a b) atStart s atEnd
  | stop {a : RegexBody} {atStart atEnd : Bool} : Covers (.star a) atStart [] atEnd
  /-- Repetitions that take nothing add nothing, so each one counted takes a character. -/
  | more {a : RegexBody} {atStart atEnd : Bool} {c : Char} {s t : List Char}
      (once : Covers a atStart (c :: s) (atEnd && t.isEmpty)) (again : Covers (.star a) false t atEnd) :
      Covers (.star a) atStart (c :: (s ++ t)) atEnd

variable {a b d r : RegexBody} {atStart atEnd : Bool} {s t : List Char} {c : Char}

theorem covers_empty_iff : Covers .empty atStart s atEnd ↔ s = [] :=
  ⟨fun h => by cases h; rfl, fun h => h ▸ .empty⟩

theorem covers_one_iff {set : CharSet} :
    Covers (.one set) atStart s atEnd ↔ ∃ c, s = [c] ∧ set.has c = true := by
  constructor
  · intro h
    cases h with
    | one has => exact ⟨_, rfl, has⟩
  · rintro ⟨c, rfl, has⟩
    exact .one has

theorem covers_start_iff : Covers .start atStart s atEnd ↔ s = [] ∧ atStart = true := by
  constructor
  · intro h
    cases h
    exact ⟨rfl, rfl⟩
  · rintro ⟨rfl, rfl⟩
    exact .start

theorem covers_finish_iff : Covers .finish atStart s atEnd ↔ s = [] ∧ atEnd = true := by
  constructor
  · intro h
    cases h
    exact ⟨rfl, rfl⟩
  · rintro ⟨rfl, rfl⟩
    exact .finish

theorem covers_seq_iff : Covers (.seq a b) atStart s atEnd ↔
    ∃ u v, s = u ++ v ∧ Covers a atStart u (atEnd && v.isEmpty) ∧
      Covers b (atStart && u.isEmpty) v atEnd := by
  constructor
  · intro h
    cases h with
    | seq first second => exact ⟨_, _, rfl, first, second⟩
  · rintro ⟨u, v, rfl, first, second⟩
    exact .seq first second

theorem isEmpty_append (s t : List Char) : (s ++ t).isEmpty = (s.isEmpty && t.isEmpty) := by
  cases s <;> rfl

/-- How sequences are nested does not matter. -/
theorem covers_seq_assoc :
    Covers (.seq (.seq a b) d) atStart s atEnd ↔ Covers (.seq a (.seq b d)) atStart s atEnd := by
  simp only [covers_seq_iff]
  constructor
  · rintro ⟨_, w, rfl, ⟨u, v, rfl, ha, hb⟩, hd⟩
    refine ⟨u, v ++ w, List.append_assoc _ _ _, ?_, v, w, rfl, hb, ?_⟩
    · simpa only [isEmpty_append, Bool.and_assoc, Bool.and_comm w.isEmpty] using ha
    · simpa only [isEmpty_append, Bool.and_assoc] using hd
  · rintro ⟨u, _, rfl, ha, v, w, rfl, hb, hd⟩
    refine ⟨u ++ v, w, (List.append_assoc _ _ _).symm, ⟨u, v, rfl, ?_, hb⟩, ?_⟩
    · simpa only [isEmpty_append, Bool.and_assoc, Bool.and_comm w.isEmpty] using ha
    · simpa only [isEmpty_append, Bool.and_assoc] using hd

theorem covers_alt_iff :
    Covers (.alt a b) atStart s atEnd ↔ Covers a atStart s atEnd ∨ Covers b atStart s atEnd := by
  constructor
  · intro h
    cases h with
    | left h => exact .inl h
    | right h => exact .inr h
  · rintro (h | h)
    · exact .left h
    · exact .right h

theorem covers_star_cons_iff : Covers (.star a) atStart (c :: s) atEnd ↔
    ∃ u v, s = u ++ v ∧ Covers a atStart (c :: u) (atEnd && v.isEmpty) ∧
      Covers (.star a) false v atEnd := by
  constructor
  · intro h
    cases h with
    | more once again => exact ⟨_, _, rfl, once, again⟩
  · rintro ⟨u, v, rfl, once, again⟩
    exact .more once again

/-- One more round in front, which may take nothing. -/
theorem Covers.again (once : Covers a atStart s (atEnd && t.isEmpty))
    (rest : Covers (.star a) (atStart && s.isEmpty) t atEnd) :
    Covers (.star a) atStart (s ++ t) atEnd := by
  cases s with
  | nil => simpa using rest
  | cons c s => exact .more once (by simpa using rest)

/-- Repeated, a set takes the texts over it. -/
theorem covers_star_one_iff {set : CharSet} :
    Covers (.star (.one set)) atStart s atEnd ↔ ∀ c ∈ s, set.has c = true := by
  induction s generalizing atStart with
  | nil => exact ⟨fun _ => nofun, fun _ => .stop⟩
  | cons c s ih =>
      rw [covers_star_cons_iff, List.forall_mem_cons]
      constructor
      · rintro ⟨u, v, rfl, once, again⟩
        obtain ⟨d, hu, has⟩ := covers_one_iff.mp once
        obtain ⟨rfl, rfl⟩ := List.cons.inj hu
        exact ⟨has, ih.mp again⟩
      · rintro ⟨has, hrest⟩
        exact ⟨[], s, rfl, .one has, ih.mpr hrest⟩

/-! ### Rows of marks -/

section Rows

variable {left right marks : List Bool} {place : Nat}

theorem length_orMarks (h : left.length = right.length) :
    (orMarks left right).length = right.length := by
  rw [orMarks, List.length_zipWith, h, Nat.min_self]

theorem orMarks_eq_true_iff (h : left.length = right.length) :
    (orMarks left right)[place]? = some true ↔
      left[place]? = some true ∨ right[place]? = some true := by
  rw [orMarks, List.getElem?_zipWith]
  by_cases hplace : place < right.length
  · simp [List.getElem?_eq_getElem hplace, List.getElem?_eq_getElem (h ▸ hplace)]
  · simp [List.getElem?_eq_none (Nat.le_of_not_lt hplace),
      List.getElem?_eq_none (h ▸ Nat.le_of_not_lt hplace)]

theorem length_advance {set : CharSet} (h : marks.length = s.length + 1) :
    (advance set s marks).length = s.length + 1 := by
  rw [advance, List.length_cons, List.length_zipWith, h, Nat.min_eq_left (Nat.le_succ _)]

theorem advance_eq_true_iff {set : CharSet} :
    (advance set s marks)[place]? = some true ↔
      ∃ i c, place = i + 1 ∧ s[i]? = some c ∧ marks[i]? = some true ∧ set.has c = true := by
  cases place with
  | zero => simp [advance]
  | succ i =>
      rw [advance, List.getElem?_cons_succ, List.getElem?_zipWith]
      cases hc : s[i]? <;> cases hmark : marks[i]? <;> simp [hc, hmark]

@[simp] theorem length_keepFirst : (keepFirst marks).length = marks.length := by
  cases marks <;> simp [keepFirst]

theorem keepFirst_eq_true_iff :
    (keepFirst marks)[place]? = some true ↔ place = 0 ∧ marks[place]? = some true := by
  cases marks with
  | nil => simp [keepFirst]
  | cons mark later => cases place <;> simp [keepFirst, List.getElem?_replicate]

@[simp] theorem length_keepLast : (keepLast marks).length = marks.length := by
  simp [keepLast]

theorem keepLast_eq_true_iff :
    (keepLast marks)[place]? = some true ↔ place + 1 = marks.length ∧ marks[place]? = some true := by
  by_cases hplace : place < marks.length
  · rw [keepLast, List.getElem?_reverse (by simpa using hplace), keepFirst_eq_true_iff]
    simp only [length_keepFirst, List.length_reverse]
    rw [List.getElem?_reverse (by omega), show marks.length - 1 - (marks.length - 1 - place) = place by
      omega]
    exact and_congr_left' ⟨fun h => by omega, fun h => by omega⟩
  · have hnone : marks[place]? = none := List.getElem?_eq_none (Nat.le_of_not_lt hplace)
    rw [List.getElem?_eq_none (by simpa using hplace), hnone]
    simp

theorem length_rounds {once : List Bool → List Bool}
    (honce : ∀ row : List Bool, row.length = s.length + 1 → (once row).length = s.length + 1) (n : Nat)
    (h : marks.length = s.length + 1) : (rounds once n marks).length = s.length + 1 := by
  induction n generalizing marks with
  | zero => exact h
  | succ n ih => exact ih ((length_orMarks (h.trans (honce marks h).symm)).trans (honce marks h))

theorem length_spread (h : marks.length = s.length + 1) : (spread s r marks).length = s.length + 1 := by
  induction r generalizing marks with
  | empty => exact h
  | one set => exact length_advance h
  | start => exact length_keepFirst.trans h
  | finish => exact length_keepLast.trans h
  | seq a b iha ihb => exact ihb (iha h)
  | alt a b iha ihb => exact (length_orMarks ((iha h).trans (ihb h).symm)).trans (ihb h)
  | star a iha => exact length_rounds (fun _ => iha) s.length h

end Rows

/-- From a place that a row marks, an expression covers the text up to another place. -/
def Leads (r : RegexBody) (s : List Char) (marks : List Bool) (place : Nat) : Prop :=
  ∃ before stretch after, s = before ++ (stretch ++ after) ∧ before.length + stretch.length = place ∧
    marks[before.length]? = some true ∧ Covers r before.isEmpty stretch after.isEmpty

namespace Leads

variable {marks marks' : List Bool} {place : Nat}

/-- A marked place parts the text. -/
theorem exists_split (h : marks.length = s.length + 1) (hmark : marks[place]? = some true) :
    ∃ before after, s = before ++ ([] ++ after) ∧ before.length = place := by
  have hplace : place ≤ s.length := by
    have := (List.getElem?_eq_some_iff.mp hmark).1
    omega
  exact ⟨s.take place, s.drop place, by simp, by simp [hplace]⟩

theorem mono (hcovers : ∀ {atStart atEnd : Bool} {s : List Char},
      Covers a atStart s atEnd → Covers b atStart s atEnd) (h : Leads a s marks place) :
    Leads b s marks place := by
  obtain ⟨before, stretch, after, hs, hplace, hmark, ha⟩ := h
  exact ⟨before, stretch, after, hs, hplace, hmark, hcovers ha⟩

theorem empty_iff (h : marks.length = s.length + 1) :
    Leads .empty s marks place ↔ marks[place]? = some true := by
  constructor
  · rintro ⟨before, stretch, after, rfl, rfl, hmark, hr⟩
    obtain rfl := covers_empty_iff.mp hr
    simpa using hmark
  · intro hmark
    obtain ⟨before, after, rfl, rfl⟩ := exists_split h hmark
    exact ⟨before, [], after, rfl, rfl, hmark, .empty⟩

theorem start_iff (h : marks.length = s.length + 1) :
    Leads .start s marks place ↔ place = 0 ∧ marks[place]? = some true := by
  constructor
  · rintro ⟨before, stretch, after, rfl, rfl, hmark, hr⟩
    obtain ⟨rfl, hstart⟩ := covers_start_iff.mp hr
    exact ⟨by simpa using hstart, by simpa using hmark⟩
  · rintro ⟨hplace, hmark⟩
    obtain ⟨before, after, rfl, rfl⟩ := exists_split h hmark
    exact ⟨before, [], after, rfl, rfl, hmark, covers_start_iff.mpr ⟨rfl, by simpa using hplace⟩⟩

theorem finish_iff (h : marks.length = s.length + 1) :
    Leads .finish s marks place ↔ place + 1 = marks.length ∧ marks[place]? = some true := by
  constructor
  · rintro ⟨before, stretch, after, rfl, rfl, hmark, hr⟩
    obtain ⟨rfl, hend⟩ := covers_finish_iff.mp hr
    obtain rfl := List.isEmpty_iff.mp hend
    exact ⟨by simp [h], by simpa using hmark⟩
  · rintro ⟨hplace, hmark⟩
    obtain ⟨before, after, rfl, rfl⟩ := exists_split h hmark
    have hend : after = [] := by
      simp only [h, List.length_append, List.length_nil] at hplace
      exact List.eq_nil_of_length_eq_zero (by omega)
    exact ⟨before, [], after, rfl, rfl, hmark, covers_finish_iff.mpr ⟨rfl, by simpa using hend⟩⟩

/-- The second part of a sequence goes on where the first one has ended. -/
theorem seq_iff (hmarks : ∀ place, marks'[place]? = some true ↔ Leads a s marks place) :
    Leads b s marks' place ↔ Leads (.seq a b) s marks place := by
  constructor
  · rintro ⟨before, v, after, hs, rfl, hreached, hb⟩
    obtain ⟨start, u, later, hs', hplace, hmark, ha⟩ := (hmarks _).mp hreached
    obtain ⟨rfl, rfl⟩ : start ++ u = before ∧ later = v ++ after :=
      List.append_inj ((List.append_assoc _ _ _).trans (hs'.symm.trans hs)) (by simpa using hplace)
    refine ⟨start, u ++ v, after, by simpa using hs, by simp [Nat.add_assoc], hmark, ?_⟩
    refine covers_seq_iff.mpr ⟨u, v, rfl, ?_, ?_⟩
    · simpa [isEmpty_append, Bool.and_comm] using ha
    · simpa [isEmpty_append] using hb
  · rintro ⟨before, stretch, after, rfl, rfl, hmark, h⟩
    obtain ⟨u, v, rfl, ha, hb⟩ := covers_seq_iff.mp h
    refine ⟨before ++ u, v, after, by simp, by simp [Nat.add_assoc], (hmarks _).mpr ?_, ?_⟩
    · refine ⟨before, u, v ++ after, by simp, by simp, hmark, ?_⟩
      simpa [isEmpty_append, Bool.and_comm] using ha
    · simpa [isEmpty_append] using hb

theorem alt_iff : Leads (.alt a b) s marks place ↔ Leads a s marks place ∨ Leads b s marks place := by
  constructor
  · rintro ⟨before, stretch, after, hs, hplace, hmark, h⟩
    rcases covers_alt_iff.mp h with h | h
    · exact .inl ⟨before, stretch, after, hs, hplace, hmark, h⟩
    · exact .inr ⟨before, stretch, after, hs, hplace, hmark, h⟩
  · exact fun h => h.elim (mono .left) (mono .right)

theorem one_iff {set : CharSet} : Leads (.one set) s marks place ↔
    ∃ i c, place = i + 1 ∧ s[i]? = some c ∧ marks[i]? = some true ∧ set.has c = true := by
  constructor
  · rintro ⟨before, stretch, after, rfl, rfl, hmark, h⟩
    obtain ⟨c, rfl, has⟩ := covers_one_iff.mp h
    exact ⟨before.length, c, rfl, by simp, hmark, has⟩
  · rintro ⟨i, c, rfl, hc, hmark, has⟩
    obtain ⟨hi, rfl⟩ := List.getElem?_eq_some_iff.mp hc
    have hlength : (s.take i).length = i := List.length_take_of_le (Nat.le_of_lt hi)
    refine ⟨s.take i, [s[i]], s.drop (i + 1), ?_, ?_, ?_, .one has⟩
    · simp
    · rw [hlength]
      rfl
    · rwa [hlength]

/-- Repeating goes on after at most one more round. -/
theorem star_iff (hmarks : ∀ place, marks'[place]? = some true ↔
      marks[place]? = some true ∨ Leads a s marks place) (h : marks.length = s.length + 1) :
    Leads (.star a) s marks' place ↔ Leads (.star a) s marks place := by
  have hround : ∀ place, marks'[place]? = some true ↔ Leads (.alt .empty a) s marks place :=
    fun place => (hmarks place).trans ((or_congr_left (empty_iff h).symm).trans alt_iff.symm)
  rw [seq_iff hround]
  constructor
  · refine mono fun hcovers => ?_
    obtain ⟨u, v, rfl, hround, hrest⟩ := covers_seq_iff.mp hcovers
    rcases covers_alt_iff.mp hround with hround | hround
    · obtain rfl := covers_empty_iff.mp hround
      simpa using hrest
    · exact hround.again hrest
  · refine mono fun {_ _ s} hcovers => ?_
    exact covers_seq_iff.mpr ⟨[], s, rfl, .left .empty, by simpa using hcovers⟩

end Leads

section Rounds

variable {once : List Bool → List Bool} {n : Nat} {marks : List Bool} {place : Nat}
variable (hlength : ∀ {row : List Bool}, row.length = s.length + 1 → (once row).length = s.length + 1)
  (honce : ∀ {row : List Bool} {place : Nat}, row.length = s.length + 1 →
    ((once row)[place]? = some true ↔ Leads a s row place))
include hlength honce

theorem orMarks_once_iff (h : marks.length = s.length + 1) (place : Nat) :
    (orMarks marks (once marks))[place]? = some true ↔
      marks[place]? = some true ∨ Leads a s marks place := by
  rw [orMarks_eq_true_iff (h.trans (hlength h).symm), honce h]

/-- Rounds reach only what repeating leads to. -/
theorem leads_of_rounds (h : marks.length = s.length + 1)
    (hmark : (rounds once n marks)[place]? = some true) : Leads (.star a) s marks place := by
  induction n generalizing marks with
  | zero => exact Leads.mono (fun h => covers_empty_iff.mp h ▸ .stop) ((Leads.empty_iff h).mpr hmark)
  | succ n ih =>
      have hrow := (length_orMarks (h.trans (hlength h).symm)).trans (hlength h)
      exact (Leads.star_iff (orMarks_once_iff hlength honce h) h).mp (ih hrow hmark)

/-- Rounds reach what repeating covers, if there are as many as it takes characters. -/
theorem rounds_of_covers {before stretch after : List Char} (hs : s = before ++ (stretch ++ after))
    (h : marks.length = s.length + 1) (hmark : marks[before.length]? = some true)
    (hcovers : Covers (.star a) before.isEmpty stretch after.isEmpty) (hn : stretch.length ≤ n) :
    (rounds once n marks)[before.length + stretch.length]? = some true := by
  induction n generalizing marks before stretch with
  | zero =>
      obtain rfl := List.eq_nil_of_length_eq_zero (Nat.le_zero.mp hn)
      exact hmark
  | succ n ih =>
      have hrow := (length_orMarks (h.trans (hlength h).symm)).trans (hlength h)
      have hround := orMarks_once_iff hlength honce h
      cases stretch with
      | nil => exact ih hs hrow ((hround _).mpr (.inl hmark)) .stop (Nat.zero_le n)
      | cons c rest =>
          obtain ⟨u, v, rfl, hone, hrest⟩ := covers_star_cons_iff.mp hcovers
          have hreached : Leads a s marks (before ++ c :: u).length := by
            refine ⟨before, c :: u, v ++ after, by simpa using hs, by simp, hmark, ?_⟩
            rwa [isEmpty_append, Bool.and_comm]
          have hsplit : s = (before ++ c :: u) ++ (v ++ after) := by simpa using hs
          have hlast := ih hsplit hrow
            ((hround _).mpr (.inr hreached)) (by simpa [isEmpty_append] using hrest)
            (by simp at hn; omega)
          rw [← hlast]
          congr 1
          simp [Nat.add_assoc, Nat.add_comm, Nat.add_left_comm]

end Rounds

/-- Marks are taken to the places that an expression leads to. -/
theorem spread_eq_true_iff {marks : List Bool} {place : Nat} (h : marks.length = s.length + 1) :
    (spread s r marks)[place]? = some true ↔ Leads r s marks place := by
  induction r generalizing marks place with
  | empty => exact (Leads.empty_iff h).symm
  | one set => exact advance_eq_true_iff.trans Leads.one_iff.symm
  | start => exact keepFirst_eq_true_iff.trans (Leads.start_iff h).symm
  | finish => exact keepLast_eq_true_iff.trans (Leads.finish_iff h).symm
  | seq a b iha ihb =>
      exact (ihb (length_spread h)).trans (Leads.seq_iff fun place => iha h)
  | alt a b iha ihb =>
      rw [spread, orMarks_eq_true_iff ((length_spread h).trans (length_spread h).symm), iha h, ihb h,
        Leads.alt_iff]
  | star a iha =>
      refine ⟨leads_of_rounds length_spread iha h, ?_⟩
      rintro ⟨before, stretch, after, hs, rfl, hmark, hcovers⟩
      refine rounds_of_covers length_spread iha hs h hmark hcovers ?_
      simp only [hs, List.length_append]
      omega

/-- Searching finds an expression exactly if it covers some stretch of the text. -/
theorem search_iff : search r s = true ↔
    ∃ before stretch after, s = before ++ (stretch ++ after) ∧
      Covers r before.isEmpty stretch after.isEmpty := by
  have hlength : (List.replicate (s.length + 1) true).length = s.length + 1 := List.length_replicate
  simp only [search, List.any_eq_true, id_eq, exists_eq_right, List.mem_iff_getElem?,
    spread_eq_true_iff hlength]
  constructor
  · rintro ⟨place, before, stretch, after, hs, -, -, hcovers⟩
    exact ⟨before, stretch, after, hs, hcovers⟩
  · rintro ⟨before, stretch, after, hs, hcovers⟩
    refine ⟨_, before, stretch, after, hs, rfl, ?_, hcovers⟩
    rw [List.getElem?_replicate_of_lt]
    simp only [hs, List.length_append]
    omega

end RegexBody

end Weaving
