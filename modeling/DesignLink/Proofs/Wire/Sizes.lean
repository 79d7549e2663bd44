import DesignLink.Proofs.Wire.Ranges
import DesignLink.Proofs.Wire.Reading

/-!
Scanned documents in numbers: every numeral of a scanned document is in range, and what is read of a
document is bounded by its depth or by the nesting that is allowed.
-/

namespace DesignLink.Wire

namespace Doc

mutual

/-- How many lists and objects are around the innermost part of a scanned value. -/
def depth : Doc → Nat
  | list items _ => depthOfDocs items + 1
  | object members _ => depthOfParts members + 1
  | null | boolean _ | numeral _ | string _ | broken _ => 0

def depthOfDocs : List Doc → Nat
  | [] => 0
  | item :: rest => max item.depth (depthOfDocs rest)

def depthOfParts : List (Except Fault String × Doc) → Nat
  | [] => 0
  | (_, value) :: rest => max value.depth (depthOfParts rest)

end

mutual

def InRange : Doc → Prop
  | numeral value => ∀ found, value = .ok found → found.IsInRange
  | list items _ => DocsInRange items
  | object members _ => PartsInRange members
  | null | boolean _ | string _ | broken _ => True

def DocsInRange : List Doc → Prop
  | [] => True
  | item :: rest => item.InRange ∧ DocsInRange rest

def PartsInRange : List (Except Fault String × Doc) → Prop
  | [] => True
  | (_, value) :: rest => value.InRange ∧ PartsInRange rest

end

theorem inRange_scanWord {value : Doc} (inRange : value.InRange) (expected text : List Char) :
    (scanWord value expected text).1.InRange := by
  unfold scanWord
  split
  · exact inRange
  · trivial

theorem inRange_scanNumeral (negative : Bool) (text : List Char) :
    (scanNumeral negative text).1.InRange := by
  unfold scanNumeral
  split
  case h_1 => exact nofun
  case h_2 => exact fun _ read => Numeral.isInRange_of_ofText read

mutual

theorem inRange_scan (atEnd : Fault) : ∀ (fuel : Nat) (text : List Char),
    (scan atEnd fuel text).1.InRange
  | 0, _ => trivial
  | fuel + 1, text => by
    rw [scan]
    split
    case h_1 => trivial
    case h_2 => exact inRange_scanWord (show Doc.null.InRange from trivial) _ _
    case h_3 => exact inRange_scanWord (show (Doc.boolean true).InRange from trivial) _ _
    case h_4 => exact inRange_scanWord (show (Doc.boolean false).InRange from trivial) _ _
    case h_5 => exact inRange_scanNumeral true _
    case h_6 => trivial
    case h_7 rest _ =>
      have inside := inRange_scanItems atEnd fuel true rest
      generalize scanItems atEnd fuel true rest = scanned at *
      obtain ⟨items, ending⟩ := scanned
      dsimp only
      split <;> exact inside
    case h_8 rest _ =>
      have inside := inRange_scanMembers atEnd fuel true rest
      generalize scanMembers atEnd fuel true rest = scanned at *
      obtain ⟨members, ending⟩ := scanned
      dsimp only
      split <;> exact inside
    case h_9 =>
      split
      · exact inRange_scanNumeral false _
      · trivial

theorem inRange_scanItems (atEnd : Fault) : ∀ (fuel : Nat) (first : Bool) (text : List Char),
    DocsInRange (scanItems atEnd fuel first text).1
  | 0, _, _ => trivial
  | fuel + 1, first, text => by
    have item (rest : List Char) : DocsInRange (match scan atEnd fuel rest with
        | (value, .error fault) => (([value], .error fault) : List Doc × Rest)
        | (value, .ok rest) =>
          let (items, ending) := scanItems atEnd fuel false rest
          (value :: items, ending)).1 := by
      have value := inRange_scan atEnd fuel rest
      split
      case h_1 shape =>
        rw [shape] at value
        exact ⟨value, trivial⟩
      case h_2 later shape =>
        rw [shape] at value
        exact ⟨value, inRange_scanItems atEnd fuel false later⟩
    rw [scanItems]
    split
    case h_1 => trivial
    case h_2 => trivial
    case h_3 =>
      split
      case isTrue => exact item _
      case isFalse =>
        split
        case isTrue =>
          split
          case h_1 => trivial
          case h_2 => trivial
          case h_3 => exact item _
        case isFalse => trivial

theorem inRange_scanMembers (atEnd : Fault) : ∀ (fuel : Nat) (first : Bool) (text : List Char),
    PartsInRange (scanMembers atEnd fuel first text).1
  | 0, _, _ => trivial
  | fuel + 1, first, text => by
    have member (rest : List Char) :
        PartsInRange (scanMembers atEnd (fuel + 1) true ('"' :: rest)).1 := by
      rw [scanMembers_firstKey]
      split
      case h_1 => exact ⟨trivial, trivial⟩
      case h_2 =>
        split
        case h_1 rest _ =>
          have value := inRange_scan atEnd fuel rest
          split
          case h_1 shape =>
            rw [shape] at value
            exact ⟨value, trivial⟩
          case h_2 later shape =>
            rw [shape] at value
            exact ⟨value, inRange_scanMembers atEnd fuel false later⟩
        case h_2 => exact ⟨trivial, trivial⟩
        case h_3 => exact ⟨trivial, trivial⟩
    rw [scanMembers]
    split
    case h_1 => trivial
    case h_2 => trivial
    case h_3 =>
      split
      case isTrue =>
        split
        case isTrue => exact member _
        case isFalse => trivial
      case isFalse =>
        split
        case isTrue =>
          split
          case h_1 => trivial
          case h_2 => exact member _
          case h_3 => trivial
          case h_4 => trivial
        case isFalse => trivial

end

theorem inRange_ofText (text : List Char) (atEnd : Fault) : (ofText text atEnd).1.InRange :=
  inRange_scan atEnd _ text

/-! Parts of scanned values. -/

theorem depth_le_of_mem {item : Doc} : ∀ {items : List Doc}, item ∈ items →
    item.depth ≤ depthOfDocs items
  | _ :: rest, member => by
    rw [depthOfDocs]
    cases member with
    | head => exact Nat.le_max_left _ _
    | tail _ later => exact Nat.le_trans (depth_le_of_mem later) (Nat.le_max_right _ _)

theorem depth_le_of_mem_parts {key : Except Fault String} {value : Doc} :
    ∀ {members : List (Except Fault String × Doc)}, (key, value) ∈ members →
      value.depth ≤ depthOfParts members
  | (_, _) :: rest, member => by
    rw [depthOfParts]
    cases member with
    | head => exact Nat.le_max_left _ _
    | tail _ later => exact Nat.le_trans (depth_le_of_mem_parts later) (Nat.le_max_right _ _)

theorem inRange_of_mem {item : Doc} : ∀ {items : List Doc}, DocsInRange items → item ∈ items →
    item.InRange
  | _ :: _, ⟨first, _⟩, .head _ => first
  | _ :: _, ⟨_, others⟩, .tail _ later => inRange_of_mem others later

theorem inRange_of_mem_parts {key : Except Fault String} {value : Doc} :
    ∀ {members : List (Except Fault String × Doc)}, PartsInRange members →
      (key, value) ∈ members → value.InRange
  | (_, _) :: _, ⟨first, _⟩, .head _ => first
  | (_, _) :: _, ⟨_, others⟩, .tail _ later => inRange_of_mem_parts others later

end Doc

namespace Mode

/-- How deep a document can be for what is read of it: in a stream as deep as its limit allows,
otherwise as deep as it is. -/
def room : Mode → Doc → Nat
  | .stream limit, _ => limit - 1
  | .settled, doc => doc.depth

theorem room_of_enter {mode inner : Mode} (entered : mode.enter = .ok inner) {doc part : Doc}
    (inside : part.depth + 1 ≤ doc.depth) : inner.room part + 1 ≤ mode.room doc := by
  cases mode with
  | settled =>
    cases entered
    exact inside
  | stream limit =>
    rw [enter] at entered
    split at entered
    case isTrue => cases entered
    case isFalse deep =>
      cases entered
      change limit - 1 - 1 + 1 ≤ limit - 1
      omega

theorem exists_bound {mode inner : Mode} (entered : mode.enter = .ok inner) {doc : Doc} {bound : Nat}
    (container : 1 ≤ doc.depth) (room : mode.room doc ≤ bound) : ∃ less, bound = less + 1 := by
  have deep : 1 ≤ mode.room doc :=
    Nat.le_trans (Nat.le_add_left 1 _) (@room_of_enter mode inner entered doc .null container)
  exact Nat.exists_eq_succ_of_ne_zero (Nat.ne_of_gt (Nat.le_trans deep room))

end Mode

namespace Reader

mutual

theorem depth_le_of_anything (limit : Nat) : ∀ (doc : Doc) (json : Json),
    anything (.stream limit) doc = .ok json → doc.depth ≤ limit - 1
  | .list items ending, json, ok => by
    obtain ⟨inner, entered, ok⟩ := exists_of_bind ok
    obtain ⟨read, inside, -⟩ := exists_of_bind ok
    rw [Mode.enter] at entered
    split at entered
    case isTrue => cases entered
    case isFalse deep =>
      cases entered
      have shallow := depth_le_of_anythingItems (limit - 1) items ending 0 read inside
      rw [Doc.depth]
      omega
  | .object members ending, json, ok => by
    obtain ⟨inner, entered, ok⟩ := exists_of_bind ok
    obtain ⟨read, inside, -⟩ := exists_of_bind ok
    rw [Mode.enter] at entered
    split at entered
    case isTrue => cases entered
    case isFalse deep =>
      cases entered
      have shallow := depth_le_of_anythingMembers (limit - 1) members ending [] read inside
      rw [Doc.depth]
      omega
  | .null, _, _ | .boolean _, _, _ | .numeral _, _, _ | .string _, _, _ | .broken _, _, _ =>
    Nat.zero_le _

theorem depth_le_of_anythingItems (limit : Nat) : ∀ (items : List Doc) (ending : Option Fault)
    (position : Nat) (read : List Json),
    anythingItems (.stream limit) ending position items = .ok read →
      Doc.depthOfDocs items ≤ limit - 1
  | [], _, _, _, _ => Nat.zero_le _
  | doc :: rest, ending, position, read, ok => by
    rw [anythingItems] at ok
    obtain ⟨item, first, ok⟩ := exists_of_bind ok
    obtain ⟨others, later, -⟩ := exists_of_bind ok
    have shallow := depth_le_of_anything limit doc item (ok_of_mapError first)
    have others_ := depth_le_of_anythingItems limit rest ending (position + 1) others later
    exact Nat.max_le.mpr ⟨shallow, others_⟩

theorem depth_le_of_anythingMembers (limit : Nat) :
    ∀ (members : List (Except Fault String × Doc)) (ending : Option Fault)
      (entries read : List (String × Json)),
      anythingMembers (.stream limit) ending entries members = .ok read →
        Doc.depthOfParts members ≤ limit - 1
  | [], _, _, _, _ => Nat.zero_le _
  | (.error _, _) :: _, _, _, _, ok => nomatch ok
  | (.ok key, doc) :: rest, ending, entries, read, ok => by
    rw [anythingMembers] at ok
    obtain ⟨value, first, later⟩ := exists_of_bind ok
    have shallow := depth_le_of_anything limit doc value (ok_of_mapError first)
    have others_ := depth_le_of_anythingMembers limit rest ending _ read later
    exact Nat.max_le.mpr ⟨shallow, others_⟩

end

theorem depth_le_of_settle {mode : Mode} {doc : Doc} (ok : settle mode doc = .ok ()) :
    doc.depth ≤ mode.room doc := by
  cases mode with
  | settled => exact Nat.le_refl _
  | stream limit =>
    obtain ⟨json, read, -⟩ := exists_of_map ok
    exact depth_le_of_anything limit doc json read

end Reader

end DesignLink.Wire
