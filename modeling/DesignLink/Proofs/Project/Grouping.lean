import DesignLink.Project.Grouping
import DesignLink.Proofs.Mapping.Derived
import DesignLink.Proofs.Project.Paths
import DesignLink.Proofs.Project.Writing
import DesignLink.Proofs.Text.Words

/-!
Grouping of pending links. The groups are one for each source file, in the order in which the files
are first seen, and each of them is told by the links of its file alone. Without a directory asked
for, the new files of two groups are the same exactly if their source files are next to each other
and their names become the same name of a component.
-/

namespace DesignLink

/-! First occurrences. -/

section FirstOccurrences

variable {α : Type}

theorem perm_flatMap_eraseDups (key : α → String) : ∀ items : List α,
    ((items.map key).eraseDups.flatMap fun file => items.filter fun item => key item = file).Perm
      items
  | [] => .nil
  | first :: rest => by
    have later := perm_flatMap_eraseDups key (rest.filter fun item => !key item == key first)
    have others : (rest.map key).filter (fun file => !file == key first) =
        (rest.filter fun item => !key item == key first).map key := List.filter_map
    -- The parts of the other keys do not change when the items of the first key are taken away.
    have parts : ((rest.filter fun item => !key item == key first).map key).eraseDups.flatMap
        (fun file => (first :: rest).filter fun item => key item = file) =
        ((rest.filter fun item => !key item == key first).map key).eraseDups.flatMap
        (fun file => (rest.filter fun item => !key item == key first).filter
          fun item => key item = file) := by
      apply List.flatMap_congr
      intro file member
      rw [List.mem_eraseDups, List.mem_map] at member
      obtain ⟨item, among, rfl⟩ := member
      have different : key item ≠ key first := by simpa using (List.mem_filter.mp among).2
      rw [List.filter_cons_of_neg (by simpa using Ne.symm different), List.filter_filter]
      apply List.filter_congr
      intro other _
      by_cases same : key other = key item
      · simp [same, different]
      · simp [same]
    rw [List.map_cons, List.eraseDups_cons, others, List.flatMap_cons, parts,
      List.filter_cons_of_pos (by simp), List.cons_append]
    refine .cons first (.trans (.append_left _ later) ?_)
    simpa [Bool.beq_eq_decide_eq] using
      List.filter_append_perm (fun item => key item = key first) rest
  termination_by items => items.length
  decreasing_by exact Nat.lt_succ_of_le (List.length_filter_le _ _)

end FirstOccurrences

/-! Look-ups in dictionaries. -/

namespace Dictionary

variable {α : Type}

theorem get?_put (key asked : String) (value : α) : ∀ entries : List (String × α),
    get? (put entries key value) asked = if asked = key then some value else get? entries asked
  | [] => by
    by_cases same : asked = key
    · simp [put, get?, same]
    · simp [put, get?, same, Ne.symm same]
  | (k, v) :: rest => by
    have later := get?_put key asked value rest
    unfold get? at later
    by_cases here : k = key
    · subst here
      by_cases same : asked = k
      · simp [put, get?, same]
      · simp [put, get?, same, Ne.symm same]
    · by_cases first : k = asked
      · subst first
        simp [put, get?, here]
      · simp [put, get?, here, first, later]

theorem map_get?_keys : ∀ {entries : List (String × α)}, DistinctKeys entries →
    (keys entries).map (get? entries) = entries.map fun entry => some entry.2
  | [], _ => rfl
  | (k, v) :: rest, distinct => by
    obtain ⟨absent, distinct⟩ := List.nodup_cons.mp distinct
    have later := map_get?_keys distinct
    have others : (keys rest).map (get? ((k, v) :: rest)) = (keys rest).map (get? rest) := by
      apply List.map_congr_left
      intro key member
      have different : k ≠ key := fun same => absent (same ▸ member)
      simp [get?, different]
    change get? ((k, v) :: rest) k :: (keys rest).map (get? ((k, v) :: rest)) = _
    rw [others, later]
    simp [get?]

end Dictionary

/-! The group of a file. -/

def CreateRequest.sourceFile : CreateRequest → Option String
  | .multi r => some r.source
  | .single r => r.source

def CreateRequest.links : CreateRequest → List Link
  | .multi r => r.links
  | .single _ => []

section Groups

variable {settings : Settings} {outDir : Option String}

def requestOf? (settings : Settings) (outDir : Option String) (pending : List Pending) :
    Option CreateRequest :=
  if settings.ecosystem.isMultiExport then
    pending.head?.map fun p =>
      .multi { p.multiRequest settings outDir with links := pending.map Pending.link }
  else pending.getLast?.map fun p => .single (p.singleRequest settings outDir)

def groupsOf (settings : Settings) (outDir : Option String) (pending : List Pending) : Groups :=
  pending.foldl (fun (groups : Groups) p =>
    if settings.ecosystem.isMultiExport then groups.append p settings outDir
    else groups.replace p settings outDir) []

theorem groupsOf_concat (front : List Pending) (p : Pending) :
    groupsOf settings outDir (front ++ [p]) =
      if settings.ecosystem.isMultiExport then
        (groupsOf settings outDir front).append p settings outDir
      else (groupsOf settings outDir front).replace p settings outDir := by
  rw [groupsOf, List.foldl_append]
  rfl

theorem get?_groupsOf (pending : List Pending) (file : String) :
    Dictionary.get? (groupsOf settings outDir pending) file =
      requestOf? settings outDir (pending.filter fun p => p.filepath = file) := by
  induction pending using List.reverseRecOn generalizing file with
  | nil =>
    unfold requestOf?
    split <;> rfl
  | append_singleton front p ih =>
    rw [groupsOf_concat, List.filter_append]
    by_cases multi : settings.ecosystem.isMultiExport = true
    case pos =>
      have here := ih p.filepath
      simp only [requestOf?, multi, if_true] at ih here ⊢
      rw [Groups.append, here]
      cases shape : front.filter fun q => q.filepath = p.filepath with
      | nil =>
        rw [List.head?_nil, Option.map_none]
        by_cases same : file = p.filepath
        · subst same
          simp [Dictionary.get?_put, shape, Pending.multiRequest]
        · simp [Dictionary.get?_put, same, Ne.symm same, ih]
      | cons first rest =>
        rw [List.head?_cons, Option.map_some]
        by_cases same : file = p.filepath
        · subst same
          simp [Dictionary.get?_put, shape]
        · simp [Dictionary.get?_put, same, Ne.symm same, ih]
    case neg =>
      simp only [requestOf?, multi, Bool.false_eq_true, if_false] at ih ⊢
      rw [Groups.replace, Dictionary.get?_put]
      by_cases same : file = p.filepath
      · simp [same]
      · simp [same, Ne.symm same, ih]

theorem keys_groupsOf (pending : List Pending) :
    Dictionary.keys (groupsOf settings outDir pending) =
      (pending.map Pending.filepath).eraseDups := by
  induction pending using List.reverseRecOn with
  | nil => rfl
  | append_singleton front p ih =>
    rw [groupsOf_concat, List.map_append, List.map_singleton, eraseDups_concat, ← ih]
    split
    case isTrue multi =>
      have here := @get?_groupsOf settings outDir front p.filepath
      rw [Groups.append]
      split
      case h_1 => rw [keys_put]
      case h_2 request found =>
        rw [found, requestOf?, if_pos multi] at here
        obtain ⟨first, -, same⟩ := Option.map_eq_some_iff.mp here.symm
        cases same
      case h_3 => rw [keys_put]
    case isFalse => rw [Groups.replace, keys_put]

/-- The groups are the requests for the links of each file, in the order of the files. -/
theorem groupPending_eq (pending : List Pending) :
    groupPending pending settings outDir =
      (pending.map Pending.filepath).eraseDups.filterMap fun file =>
        requestOf? settings outDir (pending.filter fun p => p.filepath = file) := by
  have keys := @keys_groupsOf settings outDir pending
  have distinct : DistinctKeys (groupsOf settings outDir pending) := by
    rw [DistinctKeys, keys]
    exact nodup_eraseDups _
  have values := Dictionary.map_get?_keys distinct
  rw [keys, List.map_congr_left fun file _ => get?_groupsOf pending file] at values
  have found := congrArg (List.filterMap id) values
  rw [List.filterMap_map, List.filterMap_map] at found
  refine .trans ?_ found.symm
  change (groupsOf settings outDir pending).map (·.2) = _
  rw [← List.filterMap_eq_map]
  rfl

theorem links_requestOf? (multi : settings.ecosystem.isMultiExport = true)
    (part : List Pending) :
    (requestOf? settings outDir part).toList.flatMap CreateRequest.links =
      part.map Pending.link := by
  rw [requestOf?, if_pos multi]
  cases part with
  | nil => rfl
  | cons first rest => simp [CreateRequest.links]

theorem exists_mem_of_requestOf? {part : List Pending} {request : CreateRequest}
    (found : requestOf? settings outDir part = some request) : ∃ p ∈ part,
      request = .multi { p.multiRequest settings outDir with links := part.map Pending.link } ∨
        request = .single (p.singleRequest settings outDir) := by
  rw [requestOf?] at found
  split at found
  case isTrue =>
    obtain ⟨p, first, rfl⟩ := Option.map_eq_some_iff.mp found
    exact ⟨p, List.mem_of_head? first, .inl rfl⟩
  case isFalse =>
    obtain ⟨p, last, rfl⟩ := Option.map_eq_some_iff.mp found
    exact ⟨p, List.mem_of_getLast? last, .inr rfl⟩

theorem sourceFile_requestOf? {part : List Pending} {file : String}
    (ofFile : ∀ p ∈ part, p.filepath = file) {request : CreateRequest}
    (found : requestOf? settings outDir part = some request) :
    request.sourceFile = some file := by
  obtain ⟨p, member, rfl | rfl⟩ := exists_mem_of_requestOf? found <;>
    exact congrArg some (ofFile p member)

theorem ofFile_filter (pending : List Pending) (file : String) :
    ∀ p ∈ pending.filter (fun p => p.filepath = file), p.filepath = file :=
  fun p member => by simpa using (List.mem_filter.mp member).2

theorem exists_requestOf? {pending : List Pending} {file : String}
    (among : file ∈ (pending.map Pending.filepath).eraseDups) :
    ∃ request, requestOf? settings outDir (pending.filter fun p => p.filepath = file) =
      some request ∧ request.sourceFile = some file := by
  rw [List.mem_eraseDups, List.mem_map] at among
  obtain ⟨p, member, same⟩ := among
  have nonempty : pending.filter (fun p => p.filepath = file) ≠ [] :=
    List.ne_nil_of_mem (List.mem_filter.mpr ⟨member, by simpa using same⟩)
  obtain ⟨request, found⟩ : ∃ request, requestOf? settings outDir
      (pending.filter fun p => p.filepath = file) = some request := by
    rw [requestOf?]
    split
    case isTrue => exact ⟨_, by rw [List.head?_eq_some_head nonempty, Option.map_some]⟩
    case isFalse => exact ⟨_, by rw [List.getLast?_eq_some_getLast nonempty, Option.map_some]⟩
  exact ⟨request, found, sourceFile_requestOf? (ofFile_filter pending file) found⟩

theorem sourceFiles_groupPending (pending : List Pending) :
    (groupPending pending settings outDir).map CreateRequest.sourceFile =
      (pending.map Pending.filepath).eraseDups.map some := by
  rw [groupPending_eq, List.map_filterMap]
  refine .trans (List.filterMap_congr fun file among => ?_) (congrFun List.filterMap_eq_map _)
  obtain ⟨request, found, source⟩ := @exists_requestOf? settings outDir pending file among
  rw [found, Option.map_some, source, Function.comp_apply]

theorem exists_file_of_mem {pending : List Pending} {request : CreateRequest}
    (member : request ∈ groupPending pending settings outDir) :
    ∃ file, requestOf? settings outDir (pending.filter fun p => p.filepath = file) =
      some request := by
  rw [groupPending_eq, List.mem_filterMap] at member
  obtain ⟨file, -, found⟩ := member
  exact ⟨file, found⟩

end Groups

/-- Grouping neither loses nor repeats nor reorders links: there is one request for each source
file, in the order of first occurrence; where a file may hold several connections, it carries
exactly the links of its file in their order, elsewhere it carries the component of the last one. -/
theorem groupPending_collects (pending : List Pending) (settings : Settings)
    (outDir : Option String) :
    (groupPending pending settings outDir).map CreateRequest.sourceFile =
      (pending.map Pending.filepath).eraseDups.map some ∧
    (settings.ecosystem.isMultiExport = true →
      (∀ request ∈ groupPending pending settings outDir, ∃ r, request = .multi r ∧
        r.links = (pending.filter fun p => p.filepath = r.source).map fun p =>
          ⟨p.sourceExport, p.props, p.signature, p.component⟩) ∧
      ((groupPending pending settings outDir).flatMap CreateRequest.links).Perm
        (pending.map Pending.link)) ∧
    (settings.ecosystem.isMultiExport = false →
      ∀ request ∈ groupPending pending settings outDir, ∃ r file last, request = .single r ∧
        r.source = some file ∧
        (pending.filter fun p => p.filepath = file).getLast? = some last ∧
        r.component = { last.component with normalizedName := some last.fileName }) := by
  refine ⟨sourceFiles_groupPending pending, fun multi => ⟨?_, ?_⟩, fun single => ?_⟩
  · intro request member
    obtain ⟨file, found⟩ := exists_file_of_mem member
    have source := sourceFile_requestOf? (ofFile_filter pending file) found
    rw [requestOf?, if_pos multi] at found
    obtain ⟨p, first, rfl⟩ := Option.map_eq_some_iff.mp found
    have own : p.filepath = file := Option.some.inj source
    subst own
    exact ⟨_, rfl, rfl⟩
  · have links : (groupPending pending settings outDir).flatMap CreateRequest.links =
        ((pending.map Pending.filepath).eraseDups.flatMap fun file =>
          pending.filter fun p => p.filepath = file).map Pending.link := by
      rw [groupPending_eq, List.map_flatMap, List.filterMap_eq_flatMap_toList, List.flatMap_assoc]
      exact List.flatMap_congr fun file _ => links_requestOf? multi _
    rw [links]
    exact (perm_flatMap_eraseDups Pending.filepath pending).map Pending.link
  · intro request member
    obtain ⟨file, found⟩ := exists_file_of_mem member
    have source := sourceFile_requestOf? (ofFile_filter pending file) found
    rw [requestOf?, if_neg (by simp [single])] at found
    obtain ⟨last, ends, rfl⟩ := Option.map_eq_some_iff.mp found
    exact ⟨_, file, last, rfl, source, ends, rfl⟩

def exportLink (file sourceExport node : String) : Pending :=
  ⟨file, sourceExport, ⟨node, "", "", none, none, none⟩, none, none⟩

/-- Links of two exports of a button, with one of a card between them. -/
def interleaved : List Pending :=
  [exportLink "src/button.tsx" "default" "1:1", exportLink "src/card.tsx" "default" "1:2",
    exportLink "src/button.tsx" "IconButton" "1:3"]

def swiftSettings : Settings := { Settings.standard with ecosystem := .swift }

/-- The button and the card are the groups; the button has both of its links where a file may hold
several connections, and the component of the second one elsewhere. -/
theorem groupPending_collects_interleaved :
    (groupPending interleaved .standard none).map CreateRequest.sourceFile =
      [some "src/button.tsx", some "src/card.tsx"] ∧
    Settings.standard.ecosystem.isMultiExport = true ∧
    (∃ button card : MultiRequest,
      groupPending interleaved .standard none = [.multi button, .multi card] ∧
      button.links = [⟨"default", none, none, ⟨"1:1", "", "", none, none, none⟩⟩,
        ⟨"IconButton", none, none, ⟨"1:3", "", "", none, none, none⟩⟩]) ∧
    swiftSettings.ecosystem.isMultiExport = false ∧
    ∃ button card : SingleRequest,
      groupPending interleaved swiftSettings none = [.single button, .single card] ∧
      button.component = ⟨"1:3", "", "", some "Button", none, none⟩ := by
  have several := groupPending_collects interleaved .standard none
  have one := groupPending_collects interleaved swiftSettings none
  refine ⟨several.1, rfl, ⟨_, _, rfl, ?_⟩, rfl, _, _, rfl, ?_⟩
  · obtain ⟨r, same, links⟩ := (several.2.1 rfl).1 _ List.mem_cons_self
    obtain rfl := CreateRequest.multi.inj same
    exact links
  · obtain ⟨r, file, last, same, source, ends, component⟩ := one.2.2 rfl _ List.mem_cons_self
    obtain rfl := CreateRequest.single.inj same
    obtain rfl := Option.some.inj source
    obtain rfl := Option.some.inj ends
    exact component

/-! The files of two groups. -/

namespace Path

/-- A text that is empty or ends with a slash, and what follows up to the next slash, are told from
the text that they make up. -/
theorem append_inj_of_slash {front front' rest rest' : List Char}
    (closed : ∀ c ∈ front.getLast?, c = '/') (closed' : ∀ c ∈ front'.getLast?, c = '/')
    (plain : '/' ∉ rest) (plain' : '/' ∉ rest') (same : front ++ rest = front' ++ rest') :
    front = front' ∧ rest = rest' := by
  -- What the longer front has more is in the other rest, so it does not end with a slash.
  have nothing {longer shorter more : List Char} (closed : ∀ c ∈ longer.getLast?, c = '/')
      (same : longer = shorter ++ more) (plain : '/' ∉ more) : more = [] := by
    by_contra nonempty
    apply plain
    rw [← closed (more.getLast nonempty) (by
      rw [same, List.getLast?_append, List.getLast?_eq_some_getLast nonempty]; rfl)]
    exact List.getLast_mem nonempty
  rcases List.append_eq_append_iff.mp same with ⟨more, longer, rfl⟩ | ⟨more, longer, rfl⟩
  · obtain rfl := nothing closed' longer fun slash => plain (List.mem_append_left _ slash)
    exact ⟨by rw [longer, List.append_nil], rfl⟩
  · obtain rfl := nothing closed longer fun slash => plain' (List.mem_append_left _ slash)
    exact ⟨by rw [longer, List.append_nil], rfl⟩

theorem getLast?_append_gap (base : String) :
    ∀ c ∈ (base ++ gap base).toList.getLast?, c = '/' := by
  intro c last
  by_cases closed : base.isEmpty ∨ base.toList.getLast? = some '/'
  · rw [gap, if_pos closed, String.append_empty] at last
    rcases closed with empty | slash
    · rw [String.isEmpty_iff.mp empty] at last
      cases last
    · rw [slash] at last
      exact (Option.some.inj last).symm
  · rw [gap, if_neg closed, String.toList_append, List.getLast?_append] at last
    exact (Option.some.inj last).symm

theorem append_gap_inj {base base' : String} (folder : IsFolder base) (folder' : IsFolder base')
    (same : base ++ gap base = base' ++ gap base') : base = base' := by
  have shape {base : String} (folder : IsFolder base) :
      (base = "" ∨ base = "/") ∧ base ++ gap base = base ∨
        base ≠ "" ∧ base ++ gap base = base ++ "/" := by
    rcases folder with rfl | noSlash
    · exact .inl ⟨.inr rfl, by decide⟩
    · by_cases empty : base = ""
      · exact .inl ⟨.inl empty, by rw [empty]; decide⟩
      · exact .inr ⟨empty, by rw [gap, if_neg (by simp [empty, noSlash])]⟩
  have slashed {base : String} (nonempty : base ≠ "")
      (short : base ++ "/" = "" ∨ base ++ "/" = "/") : False := by
    rcases short with empty | slash
    · exact nonempty (String.append_eq_empty_iff.mp empty).1
    · rw [String.append_eq_right_iff] at slash
      exact nonempty slash
  rcases shape folder with ⟨short, open_⟩ | ⟨nonempty, open_⟩
  · rcases shape folder' with ⟨_, open'⟩ | ⟨nonempty', open'⟩
    · rw [← open_, same, open']
    · rw [open_, open'] at same
      exact absurd (same ▸ short) (slashed nonempty')
  · rcases shape folder' with ⟨short', open'⟩ | ⟨_, open'⟩
    · rw [open_, open'] at same
      exact absurd (same ▸ short') (slashed nonempty)
    · rw [open_, open'] at same
      exact (String.append_left_inj "/").mp same

theorem join_eq_join_iff {base base' name name' : String} (folder : IsFolder base)
    (folder' : IsFolder base') (plain : '/' ∉ name.toList) (plain' : '/' ∉ name'.toList) :
    join base name = join base' name' ↔ base = base' ∧ name = name' := by
  have relative {name : String} (plain : '/' ∉ name.toList) : isAbsolute name = false := by
    rw [isAbsolute, beq_eq_false_iff_ne]
    exact fun slash => plain (List.mem_of_head? slash)
  constructor
  · intro same
    rw [join_of_relative (relative plain), join_of_relative (relative plain'), ← String.toList_inj,
      String.toList_append (t := name), String.toList_append (t := name')] at same
    obtain ⟨front, rest⟩ := append_inj_of_slash (getLast?_append_gap base)
      (getLast?_append_gap base') plain plain' same
    exact ⟨append_gap_inj folder folder' (String.toList_inj.mp front), String.toList_inj.mp rest⟩
  · rintro ⟨rfl, rfl⟩
    rfl

end Path

theorem noSlash_connectionName (name : String) :
    '/' ∉ (Text.pascal name ++ "." ++ connectionExtension).toList := by
  obtain ⟨c, rest, shape, starts, alphanum⟩ := Text.exists_pascal name
  rw [List.all_eq_true] at alphanum
  have first : c ≠ '/' := by
    rintro rfl
    rcases starts with upper | underscore
    · cases upper
    · cases underscore
  have later : '/' ∉ rest := fun slash => by cases alphanum '/' slash
  simp [shape, connectionExtension, Ne.symm first, later]

theorem destinationFile_requestOf? {settings : Settings} {part : List Pending} {file : String}
    (ofFile : ∀ p ∈ part, p.filepath = file) {request : CreateRequest}
    (found : requestOf? settings none part = some request) :
    request.destinationFile = Path.join ((Path.parent? file).getD "")
      (Text.pascal ((Path.fileStem? file).getD "") ++ "." ++ connectionExtension) := by
  obtain ⟨p, member, rfl | rfl⟩ := exists_mem_of_requestOf? found <;> rw [← ofFile p member] <;> rfl

theorem isFolder_parent (file : String) : Path.IsFolder ((Path.parent? file).getD "") := by
  cases outer : Path.parent? file with
  | none => exact .inr (by decide)
  | some folder => exact Path.isFolder_of_parent? outer

/-- Groups are for different source files, and without a directory asked for two of them are to
produce the same file exactly if their source files are in one directory and have the same name as
components. -/
theorem groupPending_destinations (pending : List Pending) (settings : Settings) :
    (groupPending pending settings none).Pairwise fun a b => ∃ file file',
      a.sourceFile = some file ∧ b.sourceFile = some file' ∧ file ≠ file' ∧
      (a.destinationFile = b.destinationFile ↔
        (Path.parent? file).getD "" = (Path.parent? file').getD "" ∧
        Text.pascal ((Path.fileStem? file).getD "") =
          Text.pascal ((Path.fileStem? file').getD "")) := by
  rw [groupPending_eq, List.pairwise_filterMap]
  refine (nodup_eraseDups (pending.map Pending.filepath)).imp ?_
  intro file file' different a found b found'
  refine ⟨file, file', sourceFile_requestOf? (ofFile_filter pending file) found,
    sourceFile_requestOf? (ofFile_filter pending file') found', different, ?_⟩
  rw [destinationFile_requestOf? (ofFile_filter pending file) found,
    destinationFile_requestOf? (ofFile_filter pending file') found',
    Path.join_eq_join_iff (isFolder_parent file) (isFolder_parent file')
      (noSlash_connectionName _) (noSlash_connectionName _),
    String.append_left_inj, String.append_left_inj]

/-- Two source files next to each other that differ only in their extension are to produce the same
file. -/
theorem groupPending_destinations_buttons :
    ¬ ∀ (pending : List Pending) (settings : Settings),
      (groupPending pending settings none).Pairwise fun a b =>
        a.destinationFile ≠ b.destinationFile := by
  intro every
  have different := every [exportLink "src/Button.tsx" "default" "1:1",
    exportLink "src/Button.ts" "IconButton" "1:2"] .standard
  exact List.rel_of_pairwise_cons different List.mem_cons_self (by decide +kernel)

end DesignLink
