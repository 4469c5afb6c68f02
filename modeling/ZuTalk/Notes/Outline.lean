/-
# The tree of a note and its outline

`crates/vt-store/src/note_outline.rs`: `flatten_note` lists the nodes of a note in preorder, with
their depths, and `rebuild_note` makes the tree of such a list, whatever its depths.  Rows come back
as they were, each at most one deeper than the row before it, and trees come back as they were
(`outline_round_trip`).
-/

import ZuTalk.Library.Rows
import ZuTalk.Mirror.Document

namespace ZuTalk
namespace Notes

open Mirror

/-- `OutlineKind`. -/
inductive OutlineKind
  | paragraph | heading1 | heading2 | heading3 | quote | task | divider | code | bullet
  deriving DecidableEq, Repr

/-- `as_meta_str`. -/
def OutlineKind.asMetaStr : OutlineKind → Option String
  | .paragraph => none
  | .heading1 => some "heading1"
  | .heading2 => some "heading2"
  | .heading3 => some "heading3"
  | .quote => some "quote"
  | .task => some "task"
  | .divider => some "divider"
  | .code => some "code"
  | .bullet => some "bullet"

/-- `from_meta`. -/
def OutlineKind.fromMeta (value : Option String) : OutlineKind :=
  if value = some "heading1" then .heading1
  else if value = some "heading2" then .heading2
  else if value = some "heading3" then .heading3
  else if value = some "quote" then .quote
  else if value = some "task" then .task
  else if value = some "divider" then .divider
  else if value = some "code" then .code
  else if value = some "bullet" then .bullet
  else .paragraph

/-- What a row shows of a node. -/
structure OutlineNode where
  id : String
  text : String
  kind : OutlineKind
  checked : Bool
  deriving DecidableEq, Repr

/-- `OutlineRow`. -/
structure OutlineRow extends OutlineNode where
  depth : ℕ
  deriving DecidableEq, Repr

/-! ### From the tree to rows -/

/-- `node.get("children").and_then(Value::as_array)`. -/
def childItems (node : Value) : List Value :=
  match node.get "children" with
  | some (.array items) => items
  | _ => []

/-- What `flatten_node` reads of a node that has an id. -/
def nodeOf (node : Value) : Option OutlineNode :=
  let info := node.get "$"
  ((info.bind fun info => info.get "id").bind Value.asStr).map fun id => {
    id
    text := ((node.get "text").bind Value.asStr).getD ""
    kind := .fromMeta ((info.bind fun info => info.get "kind").bind Value.asStr)
    checked := (info.bind fun info => info.get "checked") = some (.bool true) }

theorem sizeOf_lt_of_lookup {entries : List (String × Value)} {key : String} {value : Value}
    (h : entries.lookup key = some value) : sizeOf value < sizeOf entries := by
  induction entries with
  | nil => cases h
  | cons entry entries ih =>
      obtain ⟨other, first⟩ := entry
      rw [List.lookup_cons] at h
      simp only [List.cons.sizeOf_spec, Prod.mk.sizeOf_spec]
      split at h
      · obtain rfl := Option.some.inj h
        omega
      · have := ih h
        omega

theorem sizeOf_lt_of_mem_childItems {node child : Value} (h : child ∈ childItems node) :
    sizeOf child < sizeOf node := by
  unfold childItems at h
  split at h
  · rename_i items hget
    cases node with
    | object entries =>
        have hitems := sizeOf_lt_of_lookup hget
        have hchild := List.sizeOf_lt_of_mem h
        simp only [Value.object.sizeOf_spec, Value.array.sizeOf_spec] at hitems ⊢
        omega
    | _ => cases hget
  · cases h

/-- `flatten_node`: a node without an id is passed over with all below it. -/
def flattenNode (node : Value) (depth : ℕ) : List OutlineRow :=
  match nodeOf node with
  | none => []
  | some info =>
      ⟨info, depth⟩ :: (childItems node).attach.flatMap fun child =>
        flattenNode child.1 (depth + 1)
  termination_by sizeOf node
  decreasing_by exact sizeOf_lt_of_mem_childItems child.2

/-- `flatten_note`. -/
def flattenNote (root : Value) : List OutlineRow :=
  (childItems root).flatMap fun child => flattenNode child 0

/-! ### From rows to the tree -/

/-- `current["children"] = …`. -/
def withChildren (children : List Value) : Value → Value
  | .object entries => .object (insertEntry "children" (.array children) entries)
  | value => value

/-- The `$` of a node. -/
def nodeMeta (node : OutlineNode) : Value :=
  let info := [("id", Value.string node.id)]
  let info := match node.kind.asMetaStr with
    | some kind => insertEntry "kind" (.string kind) info
    | none => info
  .object (if node.checked then insertEntry "checked" (.bool true) info else info)

/-- A node as `rebuild_note` makes it. -/
def nodeValue (node : OutlineNode) (children : List Value) : Value :=
  .object [("$", nodeMeta node), ("children", .array children), ("text", .string node.text)]

/-- The note with these nodes. -/
def rootValue (rootId : String) (children : List Value) : Value :=
  .object [("$", .object [("id", .string rootId)]), ("children", .array children)]

/-- The children at the end of a path. -/
def childrenAt : List ℕ → Value → List Value
  | [], current => childItems current
  | index :: path, current => ((childItems current)[index]?).elim [] (childrenAt path)

/-- `parent_children.push(node)`, at the end of a path. -/
def pushAt (node : Value) : List ℕ → Value → Value
  | [], current => withChildren (childItems current ++ [node]) current
  | index :: path, current =>
      withChildren ((childItems current).modify index (pushAt node path)) current

/-- What the loop of `rebuild_note` has: the tree, the path of the last row, and its depth. -/
structure Rebuilding where
  root : Value
  path : List ℕ
  previousDepth : ℕ

/-- A turn of the loop of `rebuild_note`. -/
def rebuildRow (rebuilding : Rebuilding) (row : OutlineRow) : Rebuilding :=
  let depth := if rebuilding.path.isEmpty then 0 else min row.depth (rebuilding.previousDepth + 1)
  let path := rebuilding.path.take depth
  let root := pushAt (nodeValue row.toOutlineNode []) path rebuilding.root
  ⟨root, path ++ [(childrenAt path root).length - 1], depth⟩

/-- `rebuild_note`. -/
def rebuildNote (rootId : String) (rows : List OutlineRow) : Value :=
  (rows.foldl rebuildRow ⟨rootValue rootId [], [], 0⟩).root

/-! ### Outlines -/

/-- A node of a note with the nodes below it. -/
inductive OutlineTree
  | node (info : OutlineNode) (children : List OutlineTree)

mutual

/-- The node as a value. -/
def OutlineTree.toValue : OutlineTree → Value
  | .node info children => nodeValue info (OutlineTree.toValues children)

/-- Nodes as values. -/
def OutlineTree.toValues : List OutlineTree → List Value
  | [] => []
  | tree :: trees => tree.toValue :: OutlineTree.toValues trees

end

mutual

/-- The rows of a node and of those below it. -/
def OutlineTree.rows (depth : ℕ) : OutlineTree → List OutlineRow
  | .node info children => ⟨info, depth⟩ :: OutlineTree.allRows (depth + 1) children

/-- The rows of nodes. -/
def OutlineTree.allRows (depth : ℕ) : List OutlineTree → List OutlineRow
  | [] => []
  | tree :: trees => tree.rows depth ++ OutlineTree.allRows depth trees

end

/-- The rows with the nearest depths that are legal, the first of which is at most a limit. -/
def nearestLegal (limit : ℕ) : List OutlineRow → List OutlineRow
  | [] => []
  | row :: rows =>
      { row with depth := min row.depth limit } :: nearestLegal (min row.depth limit + 1) rows

/-! ### What the rows of a tree are -/

section Flatten

@[simp] theorem nodeOf_nodeValue (info : OutlineNode) (children : List Value) :
    nodeOf (nodeValue info children) = some info := by
  obtain ⟨id, text, kind, checked⟩ := info
  cases kind <;> cases checked <;> rfl

@[simp] theorem childItems_nodeValue (info : OutlineNode) (children : List Value) :
    childItems (nodeValue info children) = children := rfl

@[simp] theorem childItems_rootValue (rootId : String) (children : List Value) :
    childItems (rootValue rootId children) = children := rfl

@[simp] theorem withChildren_nodeValue (info : OutlineNode) (children children' : List Value) :
    withChildren children' (nodeValue info children) = nodeValue info children' := rfl

@[simp] theorem withChildren_rootValue (rootId : String) (children children' : List Value) :
    withChildren children' (rootValue rootId children) = rootValue rootId children' := rfl

theorem flattenNode_nodeValue (info : OutlineNode) (children : List Value) (depth : ℕ) :
    flattenNode (nodeValue info children) depth =
      ⟨info, depth⟩ :: children.flatMap fun child => flattenNode child (depth + 1) := by
  rw [flattenNode, nodeOf_nodeValue]
  simp

mutual

theorem flattenNode_toValue (depth : ℕ) :
    ∀ tree : OutlineTree, flattenNode tree.toValue depth = tree.rows depth
  | .node info children => by
      rw [OutlineTree.toValue, flattenNode_nodeValue, OutlineTree.rows,
        flatMap_toValues (depth + 1) children]

theorem flatMap_toValues (depth : ℕ) : ∀ trees : List OutlineTree,
    ((OutlineTree.toValues trees).flatMap fun child => flattenNode child depth) =
      OutlineTree.allRows depth trees
  | [] => rfl
  | tree :: trees => by
      rw [OutlineTree.toValues, List.flatMap_cons, flattenNode_toValue depth tree,
        flatMap_toValues depth trees, OutlineTree.allRows]

end

/-- The rows of a note are those of its trees. -/
theorem flattenNote_rootValue (rootId : String) (trees : List OutlineTree) :
    flattenNote (rootValue rootId (OutlineTree.toValues trees)) = OutlineTree.allRows 0 trees :=
  flatMap_toValues 0 trees

theorem toValues_eq_map (trees : List OutlineTree) :
    OutlineTree.toValues trees = trees.map OutlineTree.toValue := by
  induction trees with
  | nil => rfl
  | cons tree trees ih => rw [OutlineTree.toValues, ih, List.map_cons]

theorem allRows_append (depth : ℕ) (trees trees' : List OutlineTree) :
    OutlineTree.allRows depth (trees ++ trees') =
      OutlineTree.allRows depth trees ++ OutlineTree.allRows depth trees' := by
  induction trees with
  | nil => rfl
  | cons tree trees ih =>
      rw [List.cons_append, OutlineTree.allRows, OutlineTree.allRows, ih, List.append_assoc]

end Flatten

/-! ### What rebuilding does -/

/-- The path from the first level down to the last row: the last node of each level. -/
inductive Spine : List OutlineTree → List ℕ → Prop
  | nil : Spine [] []
  | snoc {front : List OutlineTree} {info : OutlineNode} {children : List OutlineTree}
      {path : List ℕ} (below : Spine children path) :
      Spine (front ++ [.node info children]) (front.length :: path)

section Rebuild

/-- **A row is put in** below the last row, or below one of those above it: it is the last row then,
and the others stay. -/
theorem Spine.push {trees : List OutlineTree} {path : List ℕ} (h : Spine trees path)
    (info : OutlineNode) {depth : ℕ} (hdepth : depth ≤ path.length) :
    ∃ trees' last, Spine trees' (path.take depth ++ [last]) ∧
      (∀ current : Value, childItems current = OutlineTree.toValues trees →
        pushAt (nodeValue info []) (path.take depth) current =
          withChildren (OutlineTree.toValues trees') current) ∧
      (∀ current : Value, childItems current = OutlineTree.toValues trees' →
        (childrenAt (path.take depth) current).length - 1 = last) ∧
      ∀ start, OutlineTree.allRows start trees' =
        OutlineTree.allRows start trees ++ [⟨info, start + depth⟩] := by
  induction h generalizing depth with
  | nil =>
      obtain rfl := Nat.le_zero.1 hdepth
      refine ⟨[.node info []], 0, @Spine.snoc [] info [] [] .nil, fun current hcurrent => ?_,
        fun current hcurrent => ?_, fun start => rfl⟩
      · rw [List.take_nil, pushAt, hcurrent]
        rfl
      · rw [List.take_nil, childrenAt, hcurrent]
        rfl
  | @snoc front above children path below ih =>
      cases depth with
      | zero =>
          refine ⟨front ++ [.node above children] ++ [.node info []], front.length + 1, ?_,
            fun current hcurrent => ?_, fun current hcurrent => ?_, fun start => ?_⟩
          · have hsnoc := @Spine.snoc (front ++ [.node above children]) info [] [] .nil
            rw [List.length_append, List.length_singleton] at hsnoc
            exact hsnoc
          · have hmap : List.map OutlineTree.toValue
                (front ++ [OutlineTree.node above children] ++ [OutlineTree.node info []]) =
                  List.map OutlineTree.toValue (front ++ [OutlineTree.node above children]) ++
                    [nodeValue info []] := List.map_append
            rw [List.take_zero, pushAt, hcurrent, toValues_eq_map, toValues_eq_map, hmap]
          · rw [List.take_zero, childrenAt, hcurrent, toValues_eq_map, List.length_map,
              List.length_append, List.length_append]
            rfl
          · rw [allRows_append]
            rfl
      | succ depth =>
          obtain ⟨children', last, hspine, hpush, hlast, hrows⟩ :=
            ih (Nat.le_of_succ_le_succ hdepth)
          refine ⟨front ++ [.node above children'], last, .snoc hspine, fun current hcurrent => ?_,
            fun current hcurrent => ?_, fun start => ?_⟩
          · have hchild := hpush (nodeValue above (OutlineTree.toValues children)) rfl
            rw [withChildren_nodeValue] at hchild
            rw [List.take_succ_cons, pushAt, hcurrent, toValues_eq_map, toValues_eq_map,
              List.map_append, List.map_append]
            have hmodify := Rows.modify_at (front.map OutlineTree.toValue) []
              (nodeValue above (OutlineTree.toValues children))
              (pushAt (nodeValue info []) (path.take depth))
            rw [List.length_map, hchild] at hmodify
            exact congrArg (withChildren · current) hmodify
          · rw [List.take_succ_cons, childrenAt, hcurrent, toValues_eq_map, List.map_append]
            have hget : (front.map OutlineTree.toValue ++
                [OutlineTree.node above children'].map OutlineTree.toValue)[front.length]? =
                  some (nodeValue above (OutlineTree.toValues children')) := by
              rw [List.getElem?_append_right (by rw [List.length_map]), List.length_map,
                Nat.sub_self]
              rfl
            rw [hget]
            exact hlast _ rfl
          · have hone : ∀ below, OutlineTree.allRows start [.node above below] =
                ⟨above, start⟩ :: OutlineTree.allRows (start + 1) below :=
              fun below => List.append_nil _
            have hstart : start + 1 + depth = start + (depth + 1) := by omega
            rw [allRows_append, allRows_append, hone, hone, hrows, List.append_assoc,
              List.cons_append, hstart]

/-- What holds at every turn of the loop. -/
structure Rebuilt (rootId : String) (trees : List OutlineTree) (rebuilding : Rebuilding) :
    Prop where
  root : rebuilding.root = rootValue rootId (OutlineTree.toValues trees)
  spine : Spine trees rebuilding.path
  depth : rebuilding.path ≠ [] → rebuilding.path.length = rebuilding.previousDepth + 1

/-- A turn of the loop puts the row in at the nearest legal depth. -/
theorem Rebuilt.row {rootId : String} {trees : List OutlineTree} {rebuilding : Rebuilding}
    (h : Rebuilt rootId trees rebuilding) (row : OutlineRow) :
    ∃ trees', Rebuilt rootId trees' (rebuildRow rebuilding row) ∧
      (rebuildRow rebuilding row).path.length =
        min row.depth rebuilding.path.length + 1 ∧
      OutlineTree.allRows 0 trees' = OutlineTree.allRows 0 trees ++
        [{ row with depth := min row.depth rebuilding.path.length }] := by
  have hdepth : (if rebuilding.path.isEmpty then 0
      else min row.depth (rebuilding.previousDepth + 1)) =
        min row.depth rebuilding.path.length := by
    split
    · rename_i hempty
      rw [List.isEmpty_iff.1 hempty]
      exact (Nat.min_zero _).symm
    · rename_i hempty
      rw [h.depth fun hnil => hempty (List.isEmpty_iff.2 hnil)]
  obtain ⟨trees', last, hspine, hpush, hlast, hrows⟩ :=
    h.spine.push row.toOutlineNode (Nat.min_le_right row.depth rebuilding.path.length)
  have hroot := hpush rebuilding.root (h.root ▸ rfl)
  rw [h.root, withChildren_rootValue] at hroot
  have hpath := hlast (rootValue rootId (OutlineTree.toValues trees')) rfl
  have hrow : rebuildRow rebuilding row = ⟨rootValue rootId (OutlineTree.toValues trees'),
      rebuilding.path.take (min row.depth rebuilding.path.length) ++ [last],
        min row.depth rebuilding.path.length⟩ := by
    unfold rebuildRow
    rw [hdepth]
    dsimp only
    rw [h.root, hroot, hpath]
  have hlength : (rebuilding.path.take (min row.depth rebuilding.path.length) ++ [last]).length =
      min row.depth rebuilding.path.length + 1 := by
    rw [List.length_append, List.length_take_of_le (Nat.min_le_right _ _), List.length_singleton]
  rw [hrow]
  refine ⟨trees', ⟨rfl, hspine, fun _ => hlength⟩, hlength, ?_⟩
  rw [hrows, Nat.zero_add]

/-- **Rebuilding**: the rows are those that were given, at the nearest legal depths. -/
theorem Rebuilt.rows {rootId : String} {trees : List OutlineTree} {rebuilding : Rebuilding}
    (h : Rebuilt rootId trees rebuilding) (rows : List OutlineRow) :
    ∃ trees', Rebuilt rootId trees' (rows.foldl rebuildRow rebuilding) ∧
      OutlineTree.allRows 0 trees' = OutlineTree.allRows 0 trees ++
        nearestLegal rebuilding.path.length rows := by
  induction rows generalizing trees rebuilding with
  | nil => exact ⟨trees, h, (List.append_nil _).symm⟩
  | cons row rows ih =>
      obtain ⟨trees', hrow, hlength, hrows⟩ := h.row row
      obtain ⟨trees'', hall, hrest⟩ := ih hrow
      refine ⟨trees'', hall, ?_⟩
      rw [hrest, hrows, hlength, nearestLegal, List.append_assoc, List.singleton_append]

theorem rebuildNote_spec (rootId : String) (rows : List OutlineRow) :
    ∃ trees, rebuildNote rootId rows = rootValue rootId (OutlineTree.toValues trees) ∧
      OutlineTree.allRows 0 trees = nearestLegal 0 rows := by
  have hempty : Rebuilt rootId [] ⟨rootValue rootId [], [], 0⟩ :=
    ⟨rfl, .nil, fun h => absurd rfl h⟩
  obtain ⟨trees, hrebuilt, hrows⟩ := hempty.rows rows
  exact ⟨trees, hrebuilt.root, hrows⟩

end Rebuild

/-! ### Rows say what the tree is -/

section Unique

/-- The first row, if there is one, is above a depth. -/
def Above (depth : ℕ) (rows : List OutlineRow) : Prop := ∀ row ∈ rows.head?, row.depth < depth

theorem Above.allRows_append {depth : ℕ} {rows : List OutlineRow} (h : Above depth rows)
    (trees : List OutlineTree) : Above (depth + 1) (OutlineTree.allRows depth trees ++ rows) := by
  cases trees with
  | nil => exact fun row hrow => Nat.lt_succ_of_lt (h row hrow)
  | cons tree trees =>
      obtain ⟨info, children⟩ := tree
      intro row hrow
      obtain rfl := Option.some.inj hrow
      exact Nat.lt_succ_self depth

/-- Rows that begin with those of a tree are not above it. -/
theorem Above.nil {depth : ℕ} {rows rows' : List OutlineRow} {tree : OutlineTree}
    {trees : List OutlineTree} (h : Above depth rows)
    (heq : rows = OutlineTree.allRows depth (tree :: trees) ++ rows') : False := by
  obtain ⟨info, children⟩ := tree
  have hrow := h ⟨info, depth⟩ (heq ▸ rfl)
  exact absurd hrow (Nat.lt_irrefl depth)

mutual

theorem rows_unique (depth : ℕ) : ∀ (tree tree' : OutlineTree) {rows rows' : List OutlineRow},
    Above (depth + 1) rows → Above (depth + 1) rows' →
      tree.rows depth ++ rows = tree'.rows depth ++ rows' → tree = tree' ∧ rows = rows'
  | .node info children, .node info' children', rows, rows', h, h', heq => by
      rw [OutlineTree.rows, OutlineTree.rows, List.cons_append, List.cons_append,
        List.cons.injEq, OutlineRow.mk.injEq] at heq
      obtain ⟨hchildren, hrows⟩ := allRows_unique (depth + 1) children children' h h' heq.2
      exact ⟨by rw [heq.1.1, hchildren], hrows⟩

theorem allRows_unique (depth : ℕ) : ∀ (trees trees' : List OutlineTree)
    {rows rows' : List OutlineRow}, Above depth rows → Above depth rows' →
      OutlineTree.allRows depth trees ++ rows = OutlineTree.allRows depth trees' ++ rows' →
        trees = trees' ∧ rows = rows'
  | [], [], rows, rows', h, h', heq => ⟨rfl, heq⟩
  | [], tree :: trees, rows, rows', h, h', heq => (h.nil heq).elim
  | tree :: trees, [], rows, rows', h, h', heq => (h'.nil heq.symm).elim
  | tree :: trees, tree' :: trees', rows, rows', h, h', heq => by
      rw [OutlineTree.allRows, OutlineTree.allRows, List.append_assoc, List.append_assoc] at heq
      obtain ⟨htree, hrest⟩ := rows_unique depth tree tree' (h.allRows_append trees)
        (h'.allRows_append trees') heq
      obtain ⟨htrees, hrows⟩ := allRows_unique depth trees trees' h h' hrest
      exact ⟨by rw [htree, htrees], hrows⟩

end

/-- The rows of trees are legal as they are. -/
theorem nearestLegal_append {limit : ℕ} {rows rows' : List OutlineRow}
    (h : nearestLegal limit rows = rows) :
    nearestLegal limit (rows ++ rows') =
      rows ++ nearestLegal ((rows.getLast?).elim limit (·.depth + 1)) rows' := by
  induction rows generalizing limit with
  | nil => rfl
  | cons row rows ih =>
      rw [nearestLegal, List.cons.injEq] at h
      have hdepth : min row.depth limit = row.depth := congrArg (·.depth) h.1
      rw [hdepth] at h
      rw [List.cons_append, nearestLegal, hdepth, ih h.2]
      refine congrArg (row :: ·) (congrArg (rows ++ ·) (congrArg (nearestLegal · rows') ?_))
      cases rows with
      | nil => rfl
      | cons next rest => rw [List.getLast?_cons_cons, List.getLast?_cons]; rfl

/-- The last row of trees is no higher than they are. -/
theorem le_getLast_depth {depth limit : ℕ} (h : depth ≤ limit) {rows : List OutlineRow}
    (hrows : ∀ row ∈ rows, depth ≤ row.depth) :
    depth ≤ (rows.getLast?).elim limit (·.depth + 1) := by
  cases hlast : rows.getLast? with
  | none => exact h
  | some last => exact Nat.le_succ_of_le (hrows last (List.mem_of_getLast? hlast))

mutual

theorem le_rows_depth (depth : ℕ) : ∀ tree : OutlineTree, ∀ row ∈ tree.rows depth,
    depth ≤ row.depth
  | .node info children => by
      rw [OutlineTree.rows]
      exact List.forall_mem_cons.2 ⟨Nat.le_refl _, fun row hrow =>
        Nat.le_of_succ_le (le_allRows_depth (depth + 1) children row hrow)⟩

theorem le_allRows_depth (depth : ℕ) : ∀ trees : List OutlineTree,
    ∀ row ∈ OutlineTree.allRows depth trees, depth ≤ row.depth
  | [] => nofun
  | tree :: trees => by
      rw [OutlineTree.allRows]
      exact List.forall_mem_append.2 ⟨le_rows_depth depth tree, le_allRows_depth depth trees⟩

end

mutual

theorem nearestLegal_rows {depth limit : ℕ} (h : depth ≤ limit) : ∀ tree : OutlineTree,
    nearestLegal limit (tree.rows depth) = tree.rows depth
  | .node info children => by
      rw [OutlineTree.rows, nearestLegal, Nat.min_eq_left h,
        nearestLegal_allRows (Nat.le_refl (depth + 1)) children]

theorem nearestLegal_allRows {depth limit : ℕ} (h : depth ≤ limit) :
    ∀ trees : List OutlineTree,
      nearestLegal limit (OutlineTree.allRows depth trees) = OutlineTree.allRows depth trees
  | [] => rfl
  | tree :: trees => by
      rw [OutlineTree.allRows, nearestLegal_append (nearestLegal_rows h tree),
        nearestLegal_allRows (le_getLast_depth h (le_rows_depth depth tree)) trees]

end

end Unique

/-- The legal depths change nothing else. -/
theorem map_nearestLegal (limit : ℕ) (rows : List OutlineRow) :
    (nearestLegal limit rows).map OutlineRow.toOutlineNode =
      rows.map OutlineRow.toOutlineNode := by
  induction rows generalizing limit with
  | nil => rfl
  | cons row rows ih => rw [nearestLegal, List.map_cons, List.map_cons, ih]

/-- Rows come back at the nearest legal depths. -/
theorem flattenNote_rebuildNote (rootId : String) (rows : List OutlineRow) :
    flattenNote (rebuildNote rootId rows) = nearestLegal 0 rows := by
  obtain ⟨trees, hrebuild, hrows⟩ := rebuildNote_spec rootId rows
  rw [hrebuild, flattenNote_rootValue, hrows]

/-- Trees come back as they were. -/
theorem rebuildNote_flattenNote (rootId : String) (trees : List OutlineTree) :
    rebuildNote rootId (flattenNote (rootValue rootId (OutlineTree.toValues trees))) =
      rootValue rootId (OutlineTree.toValues trees) := by
  obtain ⟨trees', hrebuild, hrows⟩ := rebuildNote_spec rootId (OutlineTree.allRows 0 trees)
  rw [nearestLegal_allRows (Nat.le_refl 0)] at hrows
  have hunique := @allRows_unique 0 trees' trees [] [] nofun nofun (by rw [hrows])
  rw [flattenNote_rootValue, hrebuild, hunique.1]

/-- A row without text. -/
def blankRow (depth : ℕ) : OutlineRow := ⟨⟨"row", "", .paragraph, false⟩, depth⟩

theorem nearestLegal_stairs (start count : ℕ) :
    nearestLegal start ((List.range' start count).map blankRow) =
      (List.range' start count).map blankRow := by
  induction count generalizing start with
  | zero => rfl
  | succ count ih =>
      rw [List.range'_succ, List.map_cons, nearestLegal]
      have hdepth : min (blankRow start).depth start = start := Nat.min_self start
      rw [hdepth, ih (start + 1)]
      rfl

/-- There is no greatest depth: rows that are each one deeper than the one before stay as deep as
they are. -/
theorem no_greatest_depth :
    ¬ ∃ maximum, ∀ rootId rows, ∀ row ∈ flattenNote (rebuildNote rootId rows),
      row.depth ≤ maximum := by
  rintro ⟨maximum, h⟩
  have hrows := h "root" ((List.range' 0 (maximum + 2)).map blankRow) (blankRow (maximum + 1))
  rw [flattenNote_rebuildNote, nearestLegal_stairs] at hrows
  have hmem : blankRow (maximum + 1) ∈ (List.range' 0 (maximum + 2)).map blankRow :=
    List.mem_map_of_mem (List.mem_range'_1.2 (by omega))
  exact absurd (hrows hmem) (Nat.not_succ_le_self maximum)

/-- **The round trip of an outline.**  Rows come back in their order, each at its depth or one
deeper than the row before, if that is less; trees come back as they were; so a second round trip
changes nothing, and no row is lost or there twice. -/
theorem outline_round_trip (rootId : String) :
    (∀ rows, flattenNote (rebuildNote rootId rows) = nearestLegal 0 rows) ∧
    (∀ trees, rebuildNote rootId
        (flattenNote (rootValue rootId (OutlineTree.toValues trees))) =
      rootValue rootId (OutlineTree.toValues trees)) ∧
    (∀ rows, rebuildNote rootId (flattenNote (rebuildNote rootId rows)) =
      rebuildNote rootId rows) ∧
    ∀ rows, (flattenNote (rebuildNote rootId rows)).map OutlineRow.toOutlineNode =
      rows.map OutlineRow.toOutlineNode := by
  refine ⟨flattenNote_rebuildNote rootId, rebuildNote_flattenNote rootId, fun rows => ?_,
    fun rows => ?_⟩
  · obtain ⟨trees, hrebuild, -⟩ := rebuildNote_spec rootId rows
    rw [hrebuild, rebuildNote_flattenNote]
  · rw [flattenNote_rebuildNote, map_nearestLegal]

end Notes
end ZuTalk
