import DesignLink.Proofs.Declaration.Connections

/-!
New connection files: what is read from one is what it was written from.
-/

namespace DesignLink

open Script Script.Parser Script.Grammar Declaration

def connectionsText : List NewConnection → List Char
  | [] => ['\n']
  | c :: connections => ['\n', '\n'] ++ (c.connectText ++ connectionsText connections)

theorem endsConnection_connectionsText (connections : List NewConnection) :
    EndsConnection (connectionsText connections) := by
  cases connections with
  | nil => exact .ending
  | cons c connections => exact .connection _

/-- What is read for statements with new connections: the calls of the connections in their order. -/
def ReadsConnections (connections : List NewConnection) (source : Source)
    (statements : List Statement) : Prop :=
  List.Forall₂ (fun e (c : NewConnection) => c.ReadsConnection source e)
    (statements.flatMap (callsInStatement source)) connections

theorem statementRun_connections (depth : Nat) : ∀ (connections : List NewConnection),
    (∀ c ∈ connections, c.IsPrintable) →
      8 * (connectionsText connections).length ≤ depth + 4 → ∀ offset,
      ∃ statements s, statements.length = connections.length ∧ s.waiting = 0 ∧
        StatementRun (rules (depth + 6)) (.behind ⟨offset, connectionsText connections⟩ 0)
          statements s ∧
        ∀ source : Source, source.GoesOn offset (connectionsText connections) →
          ReadsConnections connections source statements
  | [], _, _, offset => ⟨[], _, rfl, rfl, .done rfl, fun _ _ => .nil⟩
  | c :: connections, arePrintable, enough, offset => by
    have isPrintable := arePrintable c (by simp)
    rw [connectionsText, List.length_append, List.length_append] at enough
    have short : 8 * (callText "figma" ["connect"] (c.arguments.map Piece.text)).length ≤
        depth + 4 := by
      rw [NewConnection.connectText] at enough
      omega
    obtain ⟨span, e, read, meaning⟩ := statement_of_connect c.arguments_ne_nil Piece.text
      (fun source e piece => piece.meaning source e) (NewConnection.reads_arguments isPrintable)
      short (endsConnection_connectionsText connections) true offset (offset + 2) 0
    obtain ⟨statements, s, same, settled, run, later⟩ := statementRun_connections depth connections
      (fun other member => arePrintable other (by simp [member])) (by omega)
      (offset + 2 + Text.byteSize c.connectText)
    have line : State.behind ⟨offset, connectionsText (c :: connections)⟩ 0 =
        .at true offset ⟨offset + 2, c.connectText ++ connectionsText connections⟩ 0 :=
      State.behind_gap (by simp [IsGap] : IsGap ['\n', '\n']) (fun _ _ => rfl) offset 0
    have unfinished : (State.at true offset
        ⟨offset + 2, c.connectText ++ connectionsText connections⟩ 0).lexeme.token ≠ .finished :=
      (by decide : Token.word "figma" false ≠ .finished)
    rw [line]
    refine ⟨.expression span e :: statements, s, by rw [List.length_cons, same]; rfl, settled,
      .more unfinished read run, ?_⟩
    intro source goesOn
    have goesOn' : source.GoesOn (offset + 2) (c.connectText ++ connectionsText connections) := by
      rw [connectionsText] at goesOn
      exact goesOn.behind
    have connection := NewConnection.readsConnection_of_call isPrintable.allFinite
      (meaning source goesOn')
    have calls : callsInStatement source (.expression span e) = [e] := connection.1
    rw [ReadsConnections, List.flatMap_cons, calls]
    exact .cons connection (later source goesOn'.behind)

/-! Imports before connections. -/

def importsText (lines : List (List Char)) : List Char := lines.flatMap ('\n' :: ·)

theorem statementRun_imports {depth : Nat} {connections : List NewConnection}
    (nonempty : connections ≠ []) (arePrintable : ∀ c ∈ connections, c.IsPrintable)
    (enough : 8 * (connectionsText connections).length ≤ depth + 4) :
    ∀ (lines : List (List Char)) (line : List Char),
      (∀ text ∈ line :: lines, IsImport text ∧ text.length < depth + 5) →
      ∀ newline previous offset,
      ∃ statements s, statements.length = lines.length + 1 + connections.length ∧ s.waiting = 0 ∧
        StatementRun (rules (depth + 6)) (.at newline previous
          ⟨offset, line ++ (importsText lines ++ connectionsText connections)⟩ 0) statements s ∧
        ∀ source : Source, source.GoesOn offset
          (line ++ (importsText lines ++ connectionsText connections)) →
          ReadsConnections connections source statements := by
  intro lines
  induction lines with
  | nil =>
    intro line areImports newline previous offset
    obtain ⟨isImport, short⟩ := areImports line (by simp)
    have follows : EndsImport (connectionsText connections) := by
      cases connections with
      | nil => exact absurd rfl nonempty
      | cons c connections => exact .connection _
    have read := isImport.read follows (depth + 5) short newline previous offset 0
    obtain ⟨statements, s, same, settled, run, meaning⟩ := statementRun_connections depth connections
      arePrintable enough (offset + Text.byteSize line)
    have unfinished : (State.at newline previous
        ⟨offset, line ++ connectionsText connections⟩ 0).lexeme.token ≠ .finished := by
      obtain ⟨more, rfl⟩ := isImport.starts
      exact (by decide : Token.word "import" false ≠ .finished)
    refine ⟨.other [] :: statements, s, by rw [List.length_cons, same, List.length_nil]; omega,
      settled, .more unfinished read run, ?_⟩
    intro source goesOn
    exact meaning source goesOn.behind
  | cons next lines ih =>
    intro line areImports newline previous offset
    obtain ⟨isImport, short⟩ := areImports line (by simp)
    obtain ⟨more, starts⟩ := (areImports next (by simp)).1.starts
    have shape : importsText (next :: lines) ++ connectionsText connections =
        '\n' :: (next ++ (importsText lines ++ connectionsText connections)) := by
      simp [importsText]
    have follows : EndsImport ('\n' :: (next ++ (importsText lines ++
        connectionsText connections))) := by
      rw [starts]
      exact .next _
    have read := isImport.read follows (depth + 5) short newline previous offset 0
    obtain ⟨statements, s, same, settled, run, meaning⟩ := ih next
      (fun text member => areImports text (List.mem_cons_of_mem _ member)) true
      (offset + Text.byteSize line) (offset + Text.byteSize line + 1)
    have starts' : StartsToken (next ++ (importsText lines ++ connectionsText connections)) := by
      rw [starts]
      exact fun _ _ => rfl
    have behind : State.behind ⟨offset + Text.byteSize line,
        '\n' :: (next ++ (importsText lines ++ connectionsText connections))⟩ 0 =
        .at true (offset + Text.byteSize line) ⟨offset + Text.byteSize line + 1,
          next ++ (importsText lines ++ connectionsText connections)⟩ 0 :=
      State.behind_gap (by simp [IsGap] : IsGap ['\n']) starts' _ 0
    rw [behind] at read
    rw [shape]
    have unfinished : (State.at newline previous ⟨offset, line ++ '\n' ::
        (next ++ (importsText lines ++ connectionsText connections))⟩ 0).lexeme.token ≠
        .finished := by
      obtain ⟨more, rfl⟩ := isImport.starts
      exact (by decide : Token.word "import" false ≠ .finished)
    refine ⟨.other [] :: statements, s, by rw [List.length_cons, same, List.length_cons]; omega,
      settled, .more unfinished read run, ?_⟩
    intro source goesOn
    exact meaning source goesOn.behind.behind_cons

/-! Whole files. -/

def libraryImport : List Char :=
  "import ".toList ++ ("figma".toList ++ fromText "@figma/code-connect")

theorem isImport_libraryImport : IsImport libraryImport :=
  isImport_default ⟨⟨by decide, by decide⟩, by decide⟩ "@figma/code-connect"

theorem length_le_importsText : ∀ lines : List (List Char),
    lines.length ≤ (importsText lines).length
  | [] => Nat.le_refl 0
  | line :: lines => by
    have later := length_le_importsText lines
    have shape : importsText (line :: lines) = '\n' :: (line ++ importsText lines) := by
      simp [importsText]
    rw [shape, List.length_cons, List.length_cons, List.length_append]
    omega

theorem length_le_connectionsText : ∀ connections : List NewConnection,
    connections.length ≤ (connectionsText connections).length
  | [] => Nat.zero_le _
  | c :: connections => by
    have later := length_le_connectionsText connections
    rw [connectionsText, List.length_append, List.length_append, List.length_cons]
    have two : ['\n', '\n'].length = 2 := rfl
    omega

theorem length_of_mem_importsText {line : List Char} : ∀ {lines : List (List Char)},
    line ∈ lines → line.length ≤ (importsText lines).length
  | first :: lines, member => by
    have shape : importsText (first :: lines) = '\n' :: (first ++ importsText lines) := by
      simp [importsText]
    rw [shape, List.length_cons, List.length_append]
    rcases List.mem_cons.mp member with rfl | later
    · omega
    · have := length_of_mem_importsText later
      omega

theorem read?_of_connections {lines : List (List Char)} (areImports : ∀ line ∈ lines, IsImport line)
    {connections : List NewConnection} (nonempty : connections ≠ [])
    (arePrintable : ∀ c ∈ connections, c.IsPrintable) :
    ∃ module, Module.read?
        (libraryImport ++ (importsText lines ++ connectionsText connections)) = some module ∧
      ∀ source : Source,
        source.text = libraryImport ++ (importsText lines ++ connectionsText connections) →
        ReadsConnections connections source module.body := by
  have size : (libraryImport ++ (importsText lines ++ connectionsText connections)).length =
      libraryImport.length + (importsText lines).length +
        (connectionsText connections).length := by
    rw [List.length_append, List.length_append, Nat.add_assoc]
  generalize text : libraryImport ++ (importsText lines ++ connectionsText connections) = whole
    at size
  obtain ⟨depth, deep⟩ : ∃ depth, 8 * whole.length + 64 = depth + 6 := ⟨8 * whole.length + 58, rfl⟩
  obtain ⟨statements, s, same, settled, run, meaning⟩ := statementRun_imports nonempty arePrintable
    (by omega : 8 * (connectionsText connections).length ≤ depth + 4) lines libraryImport (by
      intro line member
      rcases List.mem_cons.mp member with rfl | later
      · exact ⟨isImport_libraryImport, by omega⟩
      · have := length_of_mem_importsText later
        exact ⟨areImports line later, by omega⟩) false 0 0
  have fewLines := length_le_importsText lines
  have fewConnections := length_le_connectionsText connections
  have starts : StartsToken whole := by
    rw [← text]
    exact fun _ _ => rfl
  have first : Lexeme.first whole = .next ⟨0, whole⟩ := by
    rw [← text]
    rfl
  have noDirective : NoDirective (Lexeme.next ⟨0, whole⟩).token := by
    rw [← text]
    rintro _ ⟨⟩
  rw [text, ← State.facing_eq_at starts, ← deep] at run
  refine ⟨⟨statements⟩, read?_of_run first noDirective run settled (by omega), ?_⟩
  intro source same
  have goesOn := source.goesOn_zero
  rw [same, ← text] at goesOn
  exact meaning source goesOn

theorem cons_flatMap_imports : ∀ imports : List String,
    '\n' :: imports.flatMap (fun line => line.toList ++ ['\n']) =
      importsText (imports.map String.toList) ++ ['\n']
  | [] => rfl
  | line :: imports => by
    have later := cons_flatMap_imports imports
    rw [List.flatMap_cons, List.append_assoc, List.singleton_append, later]
    simp [importsText]

theorem cons_flatMap_connections : ∀ connections : List NewConnection,
    '\n' :: connections.flatMap (fun c => '\n' :: c.print.toList) = connectionsText connections
  | [] => rfl
  | c :: connections => by
    have later := cons_flatMap_connections connections
    rw [List.flatMap_cons, connectionsText, ← later, c.toList_print]
    simp

theorem toList_connectionFileText (imports : List String) (connections : List NewConnection) :
    (connectionFileText imports connections).toList =
      libraryImport ++ (importsText (imports.map String.toList) ++
        connectionsText connections) := by
  have head : "import figma from \"@figma/code-connect\"\n".toList = libraryImport ++ ['\n'] := by
    decide
  have lines : (String.join (imports.map (· ++ "\n"))).toList =
      imports.flatMap fun line => line.toList ++ ['\n'] := by
    simp [String.toList_join, List.flatMap_map]
  have calls : (String.join (connections.map fun c => "\n" ++ c.print)).toList =
      connections.flatMap fun c => '\n' :: c.print.toList := by
    simp [String.toList_join, List.flatMap_map]
  have layout : connectionFileText imports connections =
      "import figma from \"@figma/code-connect\"\n" ++ String.join (imports.map (· ++ "\n")) ++
        String.join (connections.map fun c => "\n" ++ c.print) := rfl
  calc (connectionFileText imports connections).toList
    _ = libraryImport ++ ['\n'] ++ imports.flatMap (fun line => line.toList ++ ['\n']) ++
        connections.flatMap fun c => '\n' :: c.print.toList := by
      rw [layout]
      simp only [String.toList_append, head, lines, calls]
    _ = libraryImport ++ ('\n' :: imports.flatMap (fun line => line.toList ++ ['\n'])) ++
        connections.flatMap fun c => '\n' :: c.print.toList := by
      rw [List.append_assoc libraryImport, List.singleton_append]
    _ = libraryImport ++ (importsText (imports.map String.toList) ++
        '\n' :: connections.flatMap fun c => '\n' :: c.print.toList) := by
      rw [cons_flatMap_imports, List.append_assoc, List.append_assoc, List.singleton_append]
    _ = libraryImport ++ (importsText (imports.map String.toList) ++
        connectionsText connections) := by
      rw [cons_flatMap_connections]

theorem exists_connections {source : Source} {connections : List NewConnection} {calls : List Expr}
    (read : List.Forall₂ (fun e (c : NewConnection) => c.ReadsConnection source e) calls
      connections) :
    ∃ found, calls.map (connectionOfCall source) = found.map .ok ∧
      List.Forall₂ NewConnection.Declares found connections := by
  induction read with
  | nil => exact ⟨[], rfl, .nil⟩
  | cons first _ ih =>
    obtain ⟨-, c, call, declares⟩ := first
    obtain ⟨found, calls, later⟩ := ih
    exact ⟨c :: found, by rw [List.map_cons, List.map_cons, call, calls], .cons declares later⟩

/-- A new file is read as the connections that it was written from, in their order. -/
theorem readConnections_connectionFileText [Diagnoses] {imports : List String}
    (areImports : ∀ line ∈ imports, IsImport line.toList) {connections : List NewConnection}
    (nonempty : connections ≠ []) (arePrintable : ∀ c ∈ connections, c.IsPrintable)
    (file : String) :
    ∃ found, readConnections file (connectionFileText imports connections) =
        .ok (found.map .ok) ∧
      List.Forall₂ NewConnection.Declares found connections := by
  have areImports' : ∀ line ∈ imports.map String.toList, IsImport line := by
    intro line member
    obtain ⟨text, among, rfl⟩ := List.mem_map.mp member
    exact areImports text among
  obtain ⟨module, read, meaning⟩ := read?_of_connections areImports' nonempty arePrintable
  rw [← toList_connectionFileText] at read
  have text : (Source.ofString file (connectionFileText imports connections)).text =
      (connectionFileText imports connections).toList := rfl
  rw [toList_connectionFileText] at text
  obtain ⟨found, calls, declares⟩ := exists_connections (meaning _ text)
  refine ⟨found, ?_, declares⟩
  rw [toList_connectionFileText, ← text] at read
  simp only [readConnections, read]
  rw [connectCalls, calls]

end DesignLink
