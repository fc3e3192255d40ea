import Weaving.Failure

/-
What lies behind an error.  Errors, failures and the errors of those who raise them are linked: each
names at most one source.  A failure that is raised shares its text, and its source, with the error it
carries, so the three are one link; a failure that a method does not declare is wrapped, and is then
the source of what wraps it.  The report about an error tells the texts along these links.
-/
namespace Weaving

/-- Something that went wrong, as it is seen when errors are traced back. -/
inductive ErrorLink where
  /-- An engine error. -/
  | error (e : AopError)
  /-- A failure. -/
  | failure (f : Failure)
  /-- The error of the one who raised a failure. -/
  | cause (c : Cause)

mutual

/-- The source that an error names. -/
def AopError.source? : AopError → Option ErrorLink
  | .undeclared _ failure => some (.failure failure)
  | .raised failure => failure.source?
  | _ => none

/-- The source that a failure names: that of the error it carries. -/
def Failure.source? : Failure → Option ErrorLink
  | .mk _ cause => cause.source?

/-- The source that a raiser's error names. -/
def Cause.source? : Cause → Option ErrorLink
  | .message _ => none
  | .context _ inner => some (.cause inner)
  | .engine error => error.source?

end

namespace ErrorLink

/-- The text of a link. -/
def display : ErrorLink → String
  | .error e => e.display
  | .failure f => f.display
  | .cause c => c.display

/-- The source that a link names. -/
def source? : ErrorLink → Option ErrorLink
  | .error e => e.source?
  | .failure f => f.source?
  | .cause c => c.source?

/-- The links from one on, each the source of the one before it, up to one that names none. -/
inductive Traced : Option ErrorLink → List ErrorLink → Prop where
  | done : Traced none []
  | back {link : ErrorLink} {rest : List ErrorLink} (source : Traced link.source? rest) :
      Traced (some link) (link :: rest)

/-- There is one way only to trace a link back. -/
theorem Traced.unique {from? : Option ErrorLink} {links others : List ErrorLink}
    (h : Traced from? links) (h' : Traced from? others) : links = others := by
  induction h generalizing others with
  | done =>
      cases h'
      rfl
  | back _ ih =>
      cases h' with
      | back source => rw [ih source]

end ErrorLink

open ErrorLink (Traced)

mutual

/-- The sources of an error can be traced back to the end, and their texts are those reported. -/
theorem AopError.traced : ∀ e : AopError,
    ∃ links, Traced e.source? links ∧ links.map (·.display) = e.sources
  | .undeclared _ failure => by
      obtain ⟨links, htraced, htexts⟩ := failure.traced
      exact ⟨_, .back htraced, congrArg (failure.display :: ·) htexts⟩
  | .raised failure => failure.traced
  | .configuration _ => ⟨[], .done, rfl⟩
  | .invocation _ _ => ⟨[], .done, rfl⟩
  | .proxyNotExposed => ⟨[], .done, rfl⟩
  | .unknownAdvice _ => ⟨[], .done, rfl⟩
  | .unsupportedMethod _ => ⟨[], .done, rfl⟩
  | .noTarget _ => ⟨[], .done, rfl⟩
  | .targetUnavailable _ _ => ⟨[], .done, rfl⟩

theorem Failure.traced : ∀ f : Failure,
    ∃ links, Traced f.source? links ∧ links.map (·.display) = f.sources
  | .mk _ cause => cause.traced

theorem Cause.traced : ∀ c : Cause,
    ∃ links, Traced c.source? links ∧ links.map (·.display) = c.sources
  | .message _ => ⟨[], .done, rfl⟩
  | .context _ inner => by
      obtain ⟨links, htraced, htexts⟩ := inner.traced
      exact ⟨_, .back htraced, congrArg (inner.display :: ·) htexts⟩
  | .engine error => error.traced

end

namespace ErrorInfo

/-- The report about an error tells the texts of the links from the error on, first its own. -/
theorem texts_of_traced {e : AopError} {links : List ErrorLink}
    (h : Traced (some (.error e)) links) :
    links.map (·.display) = (ofError e).message :: (ofError e).sourceChain := by
  obtain ⟨behind, htraced, htexts⟩ := e.traced
  rw [h.unique (.back htraced), List.map_cons, htexts]
  rfl

/-- Wrapping a checked failure that a method does not declare keeps its kind, and puts the text it had
before in front of those that lay behind it.  The report about any error tells the texts of all links
from the error to the last source, in order.  A raised failure stands among them in place of the
outermost error it carries; wrapped, it stands behind what wraps it, with the same links behind it. -/
theorem wrapping_loses_no_texts {α : Type} :
    (∀ (m : MethodSignature) (f : Failure) (kind : String), f.checkedKind = some kind →
      m.declaresFailure kind = false →
      translateUndeclared m (.error (.raised f) : Except AopError α) =
          .error (.undeclared m.text f) ∧
        (ofError (.undeclared m.text f)).checkedKind = (ofError (.raised f)).checkedKind ∧
        (ofError (.raised f)).checkedKind = some kind ∧
        (ofError (.undeclared m.text f)).sourceChain =
          (ofError (.raised f)).message :: (ofError (.raised f)).sourceChain) ∧
    (∀ e : AopError, (∃ links, Traced (some (.error e)) links) ∧
      ∀ links, Traced (some (.error e)) links →
        links.map (·.display) = (ofError e).message :: (ofError e).sourceChain) ∧
    ∀ (f : Failure) (method : String) (behind : List ErrorLink), Traced f.cause.source? behind →
      Traced (some (.error (.raised f))) (.error (.raised f) :: behind) ∧
        Traced (some (.error (.undeclared method f)))
          (.error (.undeclared method f) :: .failure f :: behind) := by
  refine ⟨fun m f kind hkind hundeclared => ⟨?_, rfl, hkind, rfl⟩, fun e => ⟨?_, ?_⟩,
    fun f method behind h => ?_⟩
  · simp [translateUndeclared, hkind, hundeclared]
  · obtain ⟨behind, htraced, _⟩ := e.traced
    exact ⟨_, .back htraced⟩
  · exact fun links => texts_of_traced
  · obtain ⟨kind, cause⟩ := f
    have hfailure : Traced (Failure.mk kind cause).source? behind := h
    exact ⟨.back hfailure, .back (.back hfailure)⟩

section Nested

/-- A failure to read, with an account of what it came from. -/
def unreadable : Failure :=
  .mk (.checked "ReadFailure") (.context "cannot load order" (.engine (.undeclared "Disk::read()"
    (.mk (.checked "DiskFailure") (.context "sector lost" (.message "no answer"))))))

def loadMethod : MethodSignature :=
  { declaringType := TypeInfo.root, name := "load", declaredFailures := ["DiskFailure"] }

/-- A failure that carries a wrapped one is wrapped once more. -/
theorem wrapping_loses_no_texts_nested :
    unreadable.checkedKind = some "ReadFailure" ∧ loadMethod.declaresFailure "ReadFailure" = false ∧
      translateUndeclared loadMethod (.error (.raised unreadable) : Except AopError Unit) =
        .error (.undeclared "Object::load()" unreadable) ∧
      (ofError (.undeclared "Object::load()" unreadable)).sourceChain =
        ["ReadFailure: cannot load order", "Undeclared checked failure thrown from Disk::read()",
          "DiskFailure: sector lost", "no answer"] := by
  have hkind : unreadable.checkedKind = some "ReadFailure" := rfl
  have hundeclared : loadMethod.declaresFailure "ReadFailure" = false := by decide
  have htext : loadMethod.text = "Object::load()" := by decide
  obtain ⟨hwrapped, _, _, hchain⟩ :=
    (wrapping_loses_no_texts (α := Unit)).1 loadMethod unreadable "ReadFailure" hkind hundeclared
  rw [htext] at hwrapped hchain
  exact ⟨hkind, hundeclared, hwrapped, hchain.trans (by decide)⟩

end Nested

end ErrorInfo

end Weaving
