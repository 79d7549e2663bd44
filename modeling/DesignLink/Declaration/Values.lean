import DesignLink.Declaration.Complaint
import DesignLink.Script.Tree

/-!
Code values that declarations give: plain ones for themselves, all other shapes as the text they
were written in.
-/

namespace DesignLink.Declaration

open Script

/-- The captured text of a span. -/
def snippet (source : Source) (kind : SnippetKind) (span : Span) : Literal :=
  .snippet ⟨kind, source.textOf span⟩

def refuse {α : Type} (source : Source) (e : Expr) : Except Problem α :=
  source.complain (.unsupportedValue (source.textOf e.span)) e.span

/-- The value of an expression without code to capture, under parentheses and type assertions. -/
def plainValue (source : Source) : Expr → Except Problem Literal
  | .string _ value => .ok (.string value)
  | .number _ value => .ok (.number value)
  | .boolean _ value => .ok (.boolean value)
  | .identifier span name =>
    if name = "undefined" then .ok .undefined else refuse source (.identifier span name)
  | .negation _ (.number _ value) => .ok (.number value.negate)
  | .group _ inner => plainValue source inner
  | .ascription _ inner _ => plainValue source inner
  | e => refuse source e

/-- The text of a template without its back quotes. -/
def withoutBackquotes (text : String) : String :=
  String.ofList (text.toList.filter fun c => c.toNat ≠ 0x60)

/-- The value of an expression that is no helper call. -/
def literalValue (source : Source) : Expr → Except Problem Literal
  | .group _ inner => literalValue source inner
  | .markup span _ => .ok (snippet source .jsxElement span)
  | .function span _ => .ok (snippet source .function span)
  | .object span _ => .ok (snippet source .object span)
  | .template span _ =>
    .ok (.snippet ⟨.templateString, withoutBackquotes (source.textOf span)⟩)
  | .property span _ => .ok (snippet source .identifier span)
  | e => plainValue source e

end DesignLink.Declaration
