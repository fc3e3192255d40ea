import Weaving.Matching.Expression
import Weaving.Pattern.Regex

/-
Reading the short form of an execution expression.  The text is cut into words before anything else,
and only the last word is read.  So a text is read by its format as long as the parameters hold no
blanks; if they do, the last word begins among them, and type and method are out of sight.
-/
namespace Weaving

namespace Blank

theorem consWord_eq_append (word : List Char) (rest : List (List Char)) :
    consWord word rest = consWord word [] ++ rest := by
  rw [consWord, consWord]
  split
  · rfl
  · rfl

theorem wordsFrom_append_blank {b : Char} (hb : isBlank b = true) (s t : List Char) :
    ∀ word : List Char, wordsFrom word (s ++ b :: t) = wordsFrom word s ++ words t := by
  induction s with
  | nil =>
      intro word
      simp only [List.nil_append, wordsFrom, hb, if_true]
      exact consWord_eq_append word.reverse (words t)
  | cons c s ih =>
      intro word
      rw [List.cons_append, wordsFrom, wordsFrom]
      split
      · rw [ih, consWord_eq_append, consWord_eq_append _ (wordsFrom [] s), List.append_assoc]
      · exact ih (c :: word)

/-- The words on both sides of a blank are those of the whole text. -/
theorem words_append_blank {b : Char} (hb : isBlank b = true) (s t : List Char) :
    words (s ++ b :: t) = words s ++ words t :=
  wordsFrom_append_blank hb s t []

theorem wordsFrom_of_no_blank {s : List Char} (hs : ∀ c ∈ s, isBlank c = false) :
    ∀ word : List Char, wordsFrom word s = consWord (word.reverse ++ s) [] := by
  induction s with
  | nil =>
      intro word
      rw [wordsFrom, List.append_nil]
  | cons c s ih =>
      intro word
      obtain ⟨hc, hs⟩ := List.forall_mem_cons.mp hs
      rw [wordsFrom, if_neg (by simp [hc]), ih hs, List.reverse_cons, List.append_assoc,
        List.singleton_append]

/-- A text without blanks is one word. -/
theorem words_of_no_blank {s : List Char} (hs : ∀ c ∈ s, isBlank c = false) (hne : s ≠ []) :
    words s = [s] := by
  rw [words, wordsFrom_of_no_blank hs, List.reverse_nil, List.nil_append, consWord,
    if_neg (by simpa using hne)]

end Blank

namespace Expression

/-- The last dot of a text divides it. -/
theorem splitAtLastDot_append {type method : List Char} (hmethod : '.' ∉ method) :
    splitAtLastDot (type ++ '.' :: method) = some (type, method) := by
  have hnone : splitAtLastDot method = none := by
    induction method with
    | nil => rfl
    | cons c s ih =>
        obtain ⟨hc, hs⟩ := not_or.mp (mt List.mem_cons.mpr hmethod)
        rw [splitAtLastDot, ih hs]
        exact if_neg (Ne.symm hc)
  induction type with
  | nil =>
      rw [List.nil_append, splitAtLastDot, hnone]
      rfl
  | cons c s ih => rw [List.cons_append, splitAtLastDot, ih]

theorem eq_append_of_splitAtLastDot {s type method : List Char}
    (h : splitAtLastDot s = some (type, method)) : s = type ++ '.' :: method := by
  induction s generalizing type with
  | nil => cases h
  | cons c s ih =>
      rw [splitAtLastDot] at h
      split at h
      · rename_i before after hrest
        cases h
        rw [ih hrest, List.cons_append]
      · split at h
        · rename_i hc
          cases h
          rw [hc, List.nil_append]
        · cases h

/-- What a word says: up to its first parenthesis, its last dot divides type and method. -/
def ofWord (engine : RegexEngine) (word : List Char) : Expression :=
  match splitAtLastDot (word.takeWhile (· != '(')) with
  | some (type, method) =>
    .execution (.ofText engine (String.ofList type)) (.ofText engine (String.ofList method))
  | none => .methodPattern (.ofText engine (String.ofList (word.takeWhile (· != '('))))

variable {engine : RegexEngine}

/-- A text of several words says what its last word says. -/
theorem ofExecution_eq_ofWord {text : String} {before last : List Char} {blank : Char}
    (htext : text.toList = before ++ blank :: last) (hblank : Blank.isBlank blank = true)
    (hbefore : Blank.words before ≠ []) (hlast : ∀ c ∈ last, Blank.isBlank c = false)
    (hne : last ≠ []) : ofExecution engine text = ofWord engine last := by
  have hwords : Blank.words text.toList = Blank.words before ++ [last] := by
    rw [htext, Blank.words_append_blank hblank, Blank.words_of_no_blank hlast hne]
  have hlength : ¬ (Blank.words before ++ [last]).length < 2 := by
    have hsome := List.length_pos_iff.mpr hbefore
    rw [List.length_append, List.length_singleton]
    omega
  rw [ofExecution, hwords]
  simp only [if_neg hlength, List.getLastD_concat]
  rfl

/-- A word names this type and this method exactly if they are what stands before its first
parenthesis. -/
theorem ofWord_eq_execution_iff {word : List Char} {type method : String}
    (hmethod : '.' ∉ method.toList) :
    ofWord engine word = .execution (.ofText engine type) (.ofText engine method) ↔
      word.takeWhile (· != '(') = type.toList ++ '.' :: method.toList := by
  rw [ofWord]
  constructor
  · intro h
    split at h
    · rename_i before after hsplit
      obtain ⟨htype, hmethod⟩ := Expression.execution.inj h
      obtain rfl : String.ofList before = type := congrArg Wildcard.text htype
      obtain rfl : String.ofList after = method := congrArg Wildcard.text hmethod
      rw [eq_append_of_splitAtLastDot hsplit, String.toList_ofList, String.toList_ofList]
    · cases h
  · intro h
    rw [h, splitAtLastDot_append hmethod]
    simp only [String.ofList_toList]

/-- The text of the documented form: the result, then type, dot and method, then the parameters in
parentheses. -/
def executionText (result type method parameters : String) : String :=
  result ++ " " ++ type ++ "." ++ method ++ "(" ++ parameters ++ ")"

theorem toList_executionText (result type method parameters : String) :
    (executionText result type method parameters).toList =
      result.toList ++ ' ' :: (type.toList ++ '.' :: method.toList ++ '(' ::
        (parameters.toList ++ [')'])) := by
  simp [executionText, String.toList_append]

theorem no_blank_closing {last : List Char} (hlast : ∀ c ∈ last, Blank.isBlank c = false) :
    ∀ c ∈ last ++ [')'], Blank.isBlank c = false :=
  List.forall_mem_append.mpr ⟨hlast, List.forall_mem_singleton.mpr (by rfl)⟩

variable {result type method parameters : String}

/-- Where the parameters hold no blanks, the last word begins with the type. -/
theorem ofExecution_of_no_blank (hresult : Blank.words result.toList ≠ [])
    (hcallee : ∀ c ∈ type.toList ++ '.' :: method.toList, Blank.isBlank c = false)
    (hparameters : ∀ c ∈ parameters.toList, Blank.isBlank c = false) :
    ofExecution engine (executionText result type method parameters) =
      ofWord engine (type.toList ++ '.' :: method.toList ++ '(' :: (parameters.toList ++ [')'])) := by
  refine ofExecution_eq_ofWord (toList_executionText result type method parameters) (by rfl)
    hresult ?_ (by simp)
  refine List.forall_mem_append.mpr ⟨hcallee, ?_⟩
  exact List.forall_mem_cons.mpr ⟨by rfl, no_blank_closing hparameters⟩

/-- Otherwise it begins after the last blank among them. -/
theorem ofExecution_of_blank (hresult : Blank.words result.toList ≠ []) {earlier last : List Char}
    {blank : Char} (hparameters : parameters.toList = earlier ++ blank :: last)
    (hblank : Blank.isBlank blank = true) (hlast : ∀ c ∈ last, Blank.isBlank c = false) :
    ofExecution engine (executionText result type method parameters) =
      ofWord engine (last ++ [')']) := by
  have htext : (executionText result type method parameters).toList =
      (result.toList ++ ' ' :: (type.toList ++ '.' :: method.toList ++ '(' :: earlier)) ++
        blank :: (last ++ [')']) := by
    rw [toList_executionText, hparameters]
    simp
  refine ofExecution_eq_ofWord htext hblank ?_ (no_blank_closing hlast) (by simp)
  rw [Blank.words_append_blank (by rfl)]
  exact List.append_ne_nil_of_left_ne_nil hresult _

/-- A text of the documented form, given words for the result, a type without blanks and opening
parentheses, a method that has no dots either, and parameters.  Without blanks among the parameters
the text is read as this type and this method.  If there are any, it is read as if everything between
the words for the result and the last of them were missing; so it says this type and this method only
if the rest of the parameters happens to say so. -/
theorem ofExecution_reads_last_word (engine : RegexEngine) (result type method parameters : String)
    (hresult : Blank.words result.toList ≠ [])
    (htype : ∀ c ∈ type.toList, Blank.isBlank c = false ∧ c ≠ '(')
    (hmethod : ∀ c ∈ method.toList, Blank.isBlank c = false ∧ c ≠ '.' ∧ c ≠ '(') :
    ((∀ c ∈ parameters.toList, Blank.isBlank c = false) →
      ofExecution engine (executionText result type method parameters) =
        .execution (.ofText engine type) (.ofText engine method)) ∧
    ∀ (earlier last : List Char) (blank : Char), parameters.toList = earlier ++ blank :: last →
      Blank.isBlank blank = true → (∀ c ∈ last, Blank.isBlank c = false) →
      ofExecution engine (executionText result type method parameters) =
          ofExecution engine (result ++ " " ++ String.ofList last ++ ")") ∧
        (ofExecution engine (executionText result type method parameters) =
            .execution (.ofText engine type) (.ofText engine method) ↔
          (last ++ [')']).takeWhile (· != '(') = type.toList ++ '.' :: method.toList) := by
  have hdot : '.' ∉ method.toList := fun hmem => (hmethod '.' hmem).2.1 rfl
  have hcallee : ∀ c ∈ type.toList ++ '.' :: method.toList,
      Blank.isBlank c = false ∧ c ≠ '(' := by
    refine List.forall_mem_append.mpr ⟨htype, List.forall_mem_cons.mpr ⟨⟨by rfl, by decide⟩, ?_⟩⟩
    exact fun c hc => ⟨(hmethod c hc).1, (hmethod c hc).2.2⟩
  refine ⟨fun hparameters => ?_, fun earlier last blank hparameters hblank hlast => ?_⟩
  · rw [ofExecution_of_no_blank hresult (fun c hc => (hcallee c hc).1) hparameters,
      ofWord_eq_execution_iff hdot,
      List.takeWhile_append_of_pos fun c hc => bne_iff_ne.mpr (hcallee c hc).2]
    exact List.append_nil _
  · have hshort : (result ++ " " ++ String.ofList last ++ ")").toList =
        result.toList ++ ' ' :: (last ++ [')']) := by
      simp [String.toList_append]
    rw [ofExecution_of_blank hresult hparameters hblank hlast,
      ofExecution_eq_ofWord hshort (by rfl) hresult (no_blank_closing hlast) (by simp)]
    exact ⟨rfl, ofWord_eq_execution_iff hdot⟩

/-- A second parameter hides the type and the method. -/
theorem ofExecution_reads_last_word_spaced :
    Blank.words "*".toList ≠ [] ∧
      (∀ c ∈ "Svc".toList, Blank.isBlank c = false ∧ c ≠ '(') ∧
      (∀ c ∈ "get".toList, Blank.isBlank c = false ∧ c ≠ '.' ∧ c ≠ '(') ∧
      executionText "*" "Svc" "get" "String, i64" = "* Svc.get(String, i64)" ∧
      ofExecution .simple "* Svc.get(String, i64)" ≠
        .execution (.ofText .simple "Svc") (.ofText .simple "get") ∧
      ofExecution .simple "* Svc.get(String, i64)" = ofExecution .simple "* i64)" := by
  have hresult : Blank.words "*".toList ≠ [] := by decide
  have htype : ∀ c ∈ "Svc".toList, Blank.isBlank c = false ∧ c ≠ '(' := by
    have hall : ("Svc".toList.all fun c => !Blank.isBlank c && c != '(') = true := by decide
    simpa using hall
  have hmethod : ∀ c ∈ "get".toList, Blank.isBlank c = false ∧ c ≠ '.' ∧ c ≠ '(' := by
    have hall : ("get".toList.all fun c => !Blank.isBlank c && (c != '.' && c != '(')) = true := by
      decide
    simpa using hall
  have hlast : ∀ c ∈ "i64".toList, Blank.isBlank c = false := by
    have hall : ("i64".toList.all fun c => !Blank.isBlank c) = true := by decide
    simpa using hall
  have htext : executionText "*" "Svc" "get" "String, i64" = "* Svc.get(String, i64)" := by
    decide
  obtain ⟨_, hspaced⟩ :=
    ofExecution_reads_last_word .simple "*" "Svc" "get" "String, i64" hresult htype hmethod
  obtain ⟨hsame, hnames⟩ :=
    hspaced "String,".toList "i64".toList ' ' (by rfl) (by rfl) hlast
  rw [htext] at hsame hnames
  refine ⟨hresult, htype, hmethod, htext, fun hread => ?_, hsame⟩
  exact absurd (hnames.mp hread) (by decide)

end Expression

end Weaving
