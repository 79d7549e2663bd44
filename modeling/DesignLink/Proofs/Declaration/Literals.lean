import DesignLink.Declaration.Values
import DesignLink.Proofs.Mapping.Declarable
import DesignLink.Proofs.Script.Calls
import DesignLink.Proofs.Script.Numerals

/-!
The written forms of literals read back: all but numbers that are not finite, which are written as
names that no literal is.
-/

namespace DesignLink.Declaration

open Script

/-- The written form of a piece of code is read as that piece wherever it stands. -/
def StandsAlone (s : Snippet) : Prop :=
  Reads (Literal.snippet s).print.toList fun source e =>
    e.isCall = false ∧ literalValue source e = .ok (.snippet s)

theorem standsAlone_path {head name : String} {names : List String}
    (isOperand : IsOperandName head)
    (areNames : ∀ name' ∈ name :: names, Text.isIdentifier name' = true) :
    StandsAlone ⟨.identifier, String.ofList (pathText head (name :: names))⟩ := by
  have path := reads_path isOperand areNames
  have print : (Literal.snippet
      ⟨.identifier, String.ofList (pathText head (name :: names))⟩).print.toList =
      pathText head (name :: names) := String.toList_ofList
  rw [StandsAlone, print]
  apply path.imp
  rintro source _ ⟨span, inner, rfl, text⟩
  refine ⟨rfl, ?_⟩
  rw [literalValue, snippet, text]

/-- What is read for the written form of a literal: the literal, or nothing if it is a number that
is not finite. -/
def ReadsLiteral (literal : Literal) (source : Source) (e : Expr) : Prop :=
  e.isCall = false ∧
    (literalValue source e).toOption = if literal.isFinite then some literal else none

theorem reads_finite {negative : Bool} {m : Magnitude} :
    Reads (Number.finite negative m).format.toList
      (ReadsLiteral (.number (.finite negative m))) := by
  obtain ⟨n, text, denotes⟩ := Number.exists_numeral m
  rw [Number.format_finite]
  cases negative with
  | false =>
    rw [Number.withSign, if_neg Bool.false_ne_true, ← text]
    apply (reads_numeral n denotes).imp
    rintro source _ ⟨span, rfl⟩
    exact ⟨rfl, rfl⟩
  | true =>
    have shape : (Number.withSign true (Number.magnitudeText m)).toList = '-' :: n.text := by
      rw [text, Number.withSign, if_pos rfl]
      simp
    rw [shape]
    apply (reads_negative n denotes).imp
    rintro source _ ⟨span, span', rfl⟩
    exact ⟨rfl, rfl⟩

theorem reads_number (value : Number) :
    Reads value.format.toList (ReadsLiteral (.number value)) := by
  cases value with
  | finite negative m => exact reads_finite
  | infinite negative =>
    cases negative with
    | false =>
      apply (reads_identifier (by decide : "Infinity" ∈ valueNames)).imp
      rintro source _ ⟨span, rfl⟩
      exact ⟨rfl, rfl⟩
    | true =>
      apply reads_minusInfinity.imp
      rintro source _ ⟨span, span', rfl⟩
      exact ⟨rfl, rfl⟩
  | undefined =>
    apply (reads_identifier (by decide : "NaN" ∈ valueNames)).imp
    rintro source _ ⟨span, rfl⟩
    exact ⟨rfl, rfl⟩

theorem reads_literal (literal : Literal)
    (standsAlone : ∀ s, literal = .snippet s → StandsAlone s) :
    Reads literal.print.toList (ReadsLiteral literal) := by
  cases literal with
  | snippet s =>
    apply (standsAlone s rfl).imp
    rintro source e ⟨noCall, value⟩
    exact ⟨noCall, by rw [value]; rfl⟩
  | boolean value =>
    apply (reads_boolean value).imp
    rintro source _ ⟨span, rfl⟩
    exact ⟨rfl, rfl⟩
  | number value => exact reads_number value
  | string value =>
    rw [Literal.print, toList_quoted]
    apply (reads_quoted (.inl rfl) value).imp
    rintro source _ ⟨span, rfl⟩
    exact ⟨rfl, rfl⟩
  | undefined =>
    apply (reads_identifier (by decide : "undefined" ∈ valueNames)).imp
    rintro source _ ⟨span, rfl⟩
    exact ⟨rfl, rfl⟩

end DesignLink.Declaration
