import DesignLink.Proofs.Project.Orders
import DesignLink.Proofs.Project.Requests
import DesignLink.Proofs.Project.Specifiers

/-!
Names of components in a project. Any text becomes a name that a module can use, and each request
for pending links makes a file with such a name right in its destination. Main statement:
`pascal_usable`.
-/

namespace DesignLink

/-! What a path says when a name is put behind it. -/

namespace Path

theorem cut_eq_here_iff {path : String} :
    (cut path).1 = some .here ↔ path.toList = ['.'] ∨ ['.', '/'] <+: path.toList := by
  unfold cut
  split
  case h_1 rest shape => simp [shape]
  case h_2 shape => simp [shape]
  case h_3 rest shape => simp [shape]
  case h_4 noSlash noDot noDotSlash =>
    have other : ¬ ['.', '/'] <+: path.toList := fun ⟨rest, shape⟩ => noDotSlash rest shape.symm
    have other' : path.toList ≠ ['.'] := noDot
    simp [other, other']

namespace IsEntryName

variable {name : String}

theorem ne_dot (isName : IsEntryName name) : name.toList ≠ ['.'] := by
  intro dot
  have isStep := isName.isStep
  rw [dot] at isStep
  cases isStep

/-- The dot in front of a path stays with a name behind the path, and there is no new one. -/
theorem leadingDot_join (isName : IsEntryName name) (base : String) :
    leadingDot (join base name) = leadingDot base := by
  have noSlash : ¬ ['.', '/'] <+: name.toList := fun inside =>
    isName.noSlash (inside.subset (by decide))
  have same : (cut (join base name)).1 = some .here ↔ (cut base).1 = some .here := by
    rw [cut_eq_here_iff, cut_eq_here_iff, join_of_relative isName.relative, String.toList_append,
      String.toList_append]
    -- Only the first two characters matter, so a longer path does not need to be looked at.
    match shape : base.toList with
    | [] =>
      have empty : base = "" := String.toList_eq_nil_iff.mp shape
      rw [empty, gap_empty]
      simp [isName.ne_dot, noSlash]
    | [c] =>
      by_cases top : c = '/'
      · simp [top]
      · have slash : gap base = "/" := by
          have open_ : ¬ (base.isEmpty ∨ base.toList.getLast? = some '/') := by
            simp [shape, top, ← String.toList_eq_nil_iff]
          exact if_neg open_
        simpa [slash] using eq_comm
    | c :: d :: rest => simp
  simp only [leadingDot, same]

theorem components_join (isName : IsEntryName name) (base : String) :
    components (join base name) = components base ++ [.name name] := by
  rw [components_eq, components_eq base, isName.leadingDot_join, isName.way_join,
    List.append_assoc]

end IsEntryName

end Path

/-! Names of components. -/

/-- The words that are not to be names in a module: those of the language and those of strict
code. -/
def reservedWords : List String :=
  Script.Parser.reserved ++ ["await", "yield", "let", "static", "implements", "interface",
    "package", "private", "protected", "public", "arguments", "eval"]

/-- The name of a component, as imports, markup and files use it. -/
structure IsComponentName (name : String) : Prop where
  isIdentifier : Text.isIdentifier name = true
  spelled : ∃ c rest, name.toList = c :: rest ∧ (c.isAlphanum = true ∨ c = '_') ∧
    ∀ d ∈ rest, d.isAlphanum = true
  notReserved : name ∉ reservedWords
  normal : Text.pascal name = name

theorem isComponentName_pascal (text : String) : IsComponentName (Text.pascal text) where
  isIdentifier := isIdentifier_pascal text
  spelled := by
    obtain ⟨c, rest, shape, starts, alphanum⟩ := Text.exists_pascal text
    refine ⟨c, rest, shape, ?_, List.all_eq_true.mp alphanum⟩
    rcases starts with upper | underscore
    · exact .inl (Text.isAlphanum_of_capital (by rw [upper, Bool.true_or]))
    · exact .inr underscore
  notReserved := Text.pascal_notMem_of_small (by decide) text
  normal := Text.pascal_pascal text

/-- Any text becomes the name of a component, and each request for pending links is to make a file
that has such a name, with the extension of connection files, and is right in the destination of the
request. -/
theorem pascal_usable (text : String) (pending : List Pending) (settings : Settings)
    (outDir : Option String) :
    IsComponentName (Text.pascal text) ∧
    ∀ r ∈ groupPending pending settings outDir, IsComponentName r.fileName ∧
      Path.IsEntryName (r.fileName ++ ".figma.tsx") ∧
      Path.components r.destinationFile =
        Path.components r.destination ++ [.name (r.fileName ++ ".figma.tsx")] := by
  refine ⟨isComponentName_pascal text, fun r member => ?_⟩
  obtain ⟨name, shape⟩ := CreateRequest.exists_pascal_of_mem member
  have isName : Path.IsEntryName r.connectionName := CreateRequest.isEntryName_of_mem member
  have file : r.connectionName = r.fileName ++ ".figma.tsx" := by
    rw [CreateRequest.connectionName, String.append_assoc]
    rfl
  have inside := isName.components_join r.destination
  rw [file] at isName inside
  refine ⟨shape ▸ isComponentName_pascal name, isName, ?_⟩
  rw [← inside, ← file]
  rfl

def dottedCard : Pending := exportLink "src/..3d-card.tsx" "default" "1:2"

theorem pascal_usable_dottedCard :
    IsComponentName (Text.pascal "..3d-card") ∧ Text.pascal "..3d-card" = "_3dCard" ∧
    ∃ r ∈ groupPending [dottedCard] .standard (some "./links/"),
      r.destinationFile = "./links/_3dCard.figma.tsx" ∧ IsComponentName r.fileName ∧
      Path.IsEntryName (r.fileName ++ ".figma.tsx") ∧
      Path.components r.destinationFile =
        Path.components r.destination ++ [.name (r.fileName ++ ".figma.tsx")] := by
  obtain ⟨isName, files⟩ := pascal_usable "..3d-card" [dottedCard] .standard (some "./links/")
  have member : .multi (dottedCard.multiRequest .standard (some "./links/")) ∈
      groupPending [dottedCard] .standard (some "./links/") := List.mem_singleton_self _
  exact ⟨isName, by decide, _, member, by decide, files _ member⟩

end DesignLink
