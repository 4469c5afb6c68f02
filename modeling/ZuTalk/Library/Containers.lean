/-
# Documents made of containers

A document is a family of containers, each under an id: maps, lists and texts, whose entries are
plain values or other containers.  A container stands in one place, and the roots stand in none,
so the way down from a root to a container is unique (`Path.unique`).

`Reports before after events` says that events tell the difference between two documents: every
container that reads otherwise afterwards is the target of an event, every event names the way
down to its target, and the events of a list, applied one after another, give the list
afterwards.  Where no event goes through a root, everything under it is as it was
(`Reports.content_eq_of_root`).
-/

import Mathlib.Data.List.Basic
import Mathlib.Logic.Relation

namespace Containers

/-- What stands in a slot of a container. -/
inductive Item (ι ν : Type*)
  | value (v : ν)
  | container (id : ι)

/-- What a container holds. -/
inductive Content (ι ν : Type*)
  | map (field : String → Option (Item ι ν))
  | list (items : List (Item ι ν))
  | text (content : String)

variable {ι ν : Type*}

/-- A container stands in a slot of another. -/
def Content.Holds (child : ι) : Content ι ν → Prop
  | .map field => ∃ key, field key = some (.container child)
  | .list items => .container child ∈ items
  | .text _ => False

/-- Containers, each in one place. -/
structure Document (ι ν : Type*) (isRoot : ι → Prop) where
  content : ι → Option (Content ι ν)
  held_once : ∀ {p q c hp hq}, content p = some hp → hp.Holds c → content q = some hq →
    hq.Holds c → p = q
  key_once : ∀ {p field k l c}, content p = some (.map field) → field k = some (.container c) →
    field l = some (.container c) → k = l
  root_not_held : ∀ {p c held}, isRoot c → content p = some held → ¬ held.Holds c
  held_exists : ∀ {p c held}, content p = some held → held.Holds c → ∃ inner, content c = some inner

/-- A step of a list difference. -/
inductive ListDelta (α : Type*)
  | retain (count : ℕ)
  | delete (count : ℕ)
  | insert (items : List α) (isMove : Bool)

namespace ListDelta

variable {α : Type*}

/-- The list a difference makes of a list. -/
def apply : List (ListDelta α) → List α → List α
  | [], items => items
  | .retain count :: rest, items => items.take count ++ apply rest (items.drop count)
  | .delete count :: rest, items => apply rest (items.drop count)
  | .insert new _ :: rest, items => new ++ apply rest items

/-- How many items a difference deletes. -/
def deletes : List (ListDelta α) → ℕ
  | [] => 0
  | .delete count :: rest => count + deletes rest
  | _ :: rest => deletes rest

/-- The items a difference inserts. -/
def inserted : List (ListDelta α) → List α
  | [] => []
  | .insert new _ :: rest => new ++ inserted rest
  | _ :: rest => inserted rest

/-- Whether a difference inserts what it has taken from elsewhere. -/
def moves : List (ListDelta α) → Bool
  | [] => false
  | .insert _ isMove :: rest => isMove || moves rest
  | _ :: rest => moves rest

/-- A difference that deletes nothing keeps what was there, in order. -/
theorem sublist_apply {deltas : List (ListDelta α)} (h : deletes deltas = 0) (items : List α) :
    items.Sublist (apply deltas items) := by
  induction deltas generalizing items with
  | nil => exact List.Sublist.refl _
  | cons delta rest ih =>
      cases delta with
      | retain count =>
          have hrest := ih h (items.drop count)
          have happend := (List.Sublist.refl (items.take count)).append hrest
          rwa [List.take_append_drop] at happend
      | delete count =>
          rw [deletes, Nat.add_eq_zero_iff] at h
          rw [apply, h.1, List.drop_zero]
          exact ih h.2 items
      | insert new isMove => exact (ih h items).trans (List.sublist_append_right _ _)

/-- What satisfies a property that nothing inserted has stays what it was. -/
theorem filter_apply {deltas : List (ListDelta α)} {p : α → Bool} (h : deletes deltas = 0)
    (hinserted : ∀ a ∈ inserted deltas, p a = false) (items : List α) :
    (apply deltas items).filter p = items.filter p := by
  induction deltas generalizing items with
  | nil => rfl
  | cons delta rest ih =>
      cases delta with
      | retain count =>
          rw [apply, List.filter_append, ih h hinserted, ← List.filter_append,
            List.take_append_drop]
      | delete count =>
          rw [deletes, Nat.add_eq_zero_iff] at h
          rw [apply, h.1, List.drop_zero]
          exact ih h.2 hinserted items
      | insert new isMove =>
          have hnew : new.filter p = [] := List.filter_eq_nil_iff.2 fun a ha => by
            rw [hinserted a (List.mem_append_left _ ha)]
            exact Bool.false_ne_true
          rw [apply, List.filter_append, hnew, List.nil_append]
          exact ih h (fun a ha => hinserted a (List.mem_append_right _ ha)) items

variable {ε : Type*} {deltas : ε → List (ListDelta α)} {events : List ε}

/-- Differences that delete nothing, one after another. -/
theorem sublist_foldl_apply (h : ∀ e ∈ events, deletes (deltas e) = 0) (items : List α) :
    items.Sublist (events.foldl (fun items e => apply (deltas e) items) items) := by
  induction events generalizing items with
  | nil => exact List.Sublist.refl _
  | cons e rest ih =>
      obtain ⟨he, hrest⟩ := List.forall_mem_cons.1 h
      exact (sublist_apply he items).trans (ih hrest _)

/-- The same for what satisfies a property that nothing inserted has. -/
theorem filter_foldl_apply {p : α → Bool} (h : ∀ e ∈ events, deletes (deltas e) = 0)
    (hinserted : ∀ e ∈ events, ∀ a ∈ inserted (deltas e), p a = false) (items : List α) :
    (events.foldl (fun items e => apply (deltas e) items) items).filter p = items.filter p := by
  induction events generalizing items with
  | nil => rfl
  | cons e rest ih =>
      obtain ⟨he, hrest⟩ := List.forall_mem_cons.1 h
      obtain ⟨hie, hirest⟩ := List.forall_mem_cons.1 hinserted
      exact (ih hrest hirest _).trans (filter_apply he hie items)

/-- Differences that say nothing change nothing. -/
theorem foldl_apply_of_nil (h : ∀ e ∈ events, deltas e = []) (items : List α) :
    events.foldl (fun items e => apply (deltas e) items) items = items := by
  induction events generalizing items with
  | nil => rfl
  | cons e rest ih =>
      obtain ⟨he, hrest⟩ := List.forall_mem_cons.1 h
      rw [List.foldl_cons, he]
      exact ih hrest items

end ListDelta

variable {isRoot : ι → Prop}

namespace Document

variable (doc : Document ι ν isRoot)

/-- The items of a list; a container that holds no list has none. -/
def listItems (c : ι) : List (Item ι ν) :=
  match doc.content c with
  | some (.list items) => items
  | _ => []

theorem exists_of_mem_listItems {c : ι} {item : Item ι ν} (h : item ∈ doc.listItems c) :
    ∃ items, doc.content c = some (.list items) ∧ item ∈ items := by
  unfold listItems at h
  split at h
  · rename_i items hcontent
    exact ⟨items, hcontent, h⟩
  · exact absurd h List.not_mem_nil

/-- The entry of a map under a key. -/
def field (c : ι) (key : String) : Option (Item ι ν) :=
  match doc.content c with
  | some (.map field) => field key
  | _ => none

theorem exists_of_field_eq_some {c : ι} {key : String} {item : Item ι ν}
    (h : doc.field c key = some item) :
    ∃ field, doc.content c = some (.map field) ∧ field key = some item := by
  unfold field at h
  split at h
  · rename_i field hcontent
    exact ⟨field, hcontent, h⟩
  · cases h

/-- The way from a root down to a container, both included. -/
inductive Path : List ι → ι → Prop
  | root {r : ι} (hroot : isRoot r) : Path [r] r
  | child {path : List ι} {p c : ι} {held : Content ι ν} (h : Path path p)
      (hcontent : doc.content p = some held) (hheld : held.Holds c) : Path (path ++ [c]) c

variable {doc}

theorem Path.ne_nil {path : List ι} {c : ι} (h : doc.Path path c) : path ≠ [] := by
  cases h with
  | root hroot => exact List.cons_ne_nil _ _
  | child h hcontent hheld => simp

/-- **There is one way down to a container.** -/
theorem Path.unique {path path' : List ι} {c : ι} (h : doc.Path path c)
    (h' : doc.Path path' c) : path = path' := by
  induction h generalizing path' with
  | root hroot =>
      cases h' with
      | root hroot' => rfl
      | child _ hcontent hheld => exact absurd hheld (doc.root_not_held hroot hcontent)
  | child h hcontent hheld ih =>
      cases h' with
      | root hroot' => exact absurd hheld (doc.root_not_held hroot' hcontent)
      | child h' hcontent' hheld' =>
          obtain rfl := doc.held_once hcontent hheld hcontent' hheld'
          rw [ih h']

end Document

/-- What an event says of its target. -/
inductive Diff (ι ν : Type*)
  | list (deltas : List (ListDelta (Item ι ν)))
  | other

/-- An event: a container, the containers above it, and how it changed. -/
structure Event (ι ν : Type*) where
  target : ι
  ancestors : List ι
  diff : Diff ι ν

namespace Event

/-- How a list changed. -/
def deltas (e : Event ι ν) : List (ListDelta (Item ι ν)) :=
  match e.diff with
  | .list deltas => deltas
  | .other => []

/-- The way down to the target, whether or not the ancestors include it. -/
def chain [DecidableEq ι] (e : Event ι ν) : List ι :=
  if e.ancestors.getLast? = some e.target then e.ancestors else e.ancestors ++ [e.target]

end Event

/-- Events tell exactly the difference between two documents. -/
structure Reports [DecidableEq ι] (before after : Document ι ν isRoot) (events : List (Event ι ν)) :
    Prop where
  chains : ∀ e ∈ events, after.Path e.chain e.target
  reported : ∀ {path c}, after.Path path c → before.content c ≠ after.content c →
    ∃ e ∈ events, e.target = c
  lists : ∀ {path c}, after.Path path c → after.listItems c =
    (events.filter fun e => e.target = c).foldl (fun items e => ListDelta.apply e.deltas items)
      (before.listItems c)

namespace Reports

variable [DecidableEq ι] {before after : Document ι ν isRoot} {events : List (Event ι ν)}

/-- A container that no event names on its way reads as it did. -/
theorem content_eq (h : Reports before after events) {path : List ι} {c : ι}
    (hpath : after.Path path c) (hquiet : ∀ e ∈ events, e.chain ≠ path) :
    after.content c = before.content c := by
  by_contra hne
  obtain ⟨e, he, rfl⟩ := h.reported hpath fun heq => hne heq.symm
  exact hquiet e he ((h.chains e he).unique hpath)

/-- **Where no event goes through a root, what is under it stays**: the same containers on the
same ways, each reading as it did. -/
theorem content_eq_of_root (h : Reports before after events) {r : ι}
    (hquiet : ∀ e ∈ events, e.chain.head? ≠ some r) {path : List ι} {c : ι}
    (hhead : path.head? = some r) :
    (before.Path path c ↔ after.Path path c) ∧
      (before.Path path c → after.content c = before.content c) := by
  have hsame : ∀ {path c}, after.Path path c → path.head? = some r →
      after.content c = before.content c := fun hpath hhead =>
    h.content_eq hpath fun e he heq => hquiet e he (heq ▸ hhead)
  have hforth : ∀ {path c}, before.Path path c → path.head? = some r → after.Path path c := by
    intro path c hpath
    induction hpath with
    | root hroot => exact fun _ => .root hroot
    | child hpath hcontent hheld ih =>
        intro hhead
        rw [List.head?_append_of_ne_nil _ hpath.ne_nil] at hhead
        have hafter := ih hhead
        exact .child hafter ((hsame hafter hhead).trans hcontent) hheld
  have hback : ∀ {path c}, after.Path path c → path.head? = some r → before.Path path c := by
    intro path c hpath
    induction hpath with
    | root hroot => exact fun _ => .root hroot
    | child hpath hcontent hheld ih =>
        intro hhead
        rw [List.head?_append_of_ne_nil _ hpath.ne_nil] at hhead
        exact .child (ih hhead) ((hsame hpath hhead).symm.trans hcontent) hheld
  exact ⟨⟨fun hpath => hforth hpath hhead, fun hpath => hback hpath hhead⟩,
    fun hpath => hsame (hforth hpath hhead) hhead⟩

end Reports

end Containers
