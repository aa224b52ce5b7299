import Libluksde.Lib.Heap
import Libluksde.Lib.Machine
import Mathlib.Data.Int.Notation

/-!
# Servers of read-only trees

What a server of files and directories that nobody changes is for.  A path leads to a node, which
is opened under a handle; what is read, listed and told about it is that of the tree, whatever was
asked before.
-/

namespace Lib.FileServer

open Lib.Machine

variable {ν α σ : Type*}

/-- Whether a node is opened as a file or as a directory. -/
inductive Kind
  | file
  | directory
deriving DecidableEq, Repr

/-- A tree: where a path leads, the content of a node that can be read, what is told about a node,
and the names in a node, each with what is told about it. -/
structure Tree (ν α σ : Type*) where
  find : List α → Option ν
  content : ν → Option (List α)
  status : ν → σ
  entries : ν → List (List α × σ)

inductive Request (α : Type*)
  | openAs (kind : Kind) (writing : Bool) (path : List α)
  | read (handle size : ℕ) (offset : ℤ)
  | list (handle : ℕ)
  | status (path : List α)
  | close (kind : Kind) (handle : ℕ)

inductive Failure
  | badHandle
  | invalid
  | readOnly
  | missing
  | unreadable
deriving DecidableEq, Repr

inductive Reply (α σ : Type*)
  | failed (failure : Failure)
  | opened (handle : ℕ)
  | data (data : List α)
  | entries (entries : List (List α × σ))
  | status (status : σ)
  | closed (kind : Kind)

/-- The nodes that are open, under their handles. -/
abbrev HandleTable (ν : Type*) := Heap (Kind × ν)

/-- The node that is open under a handle, as a file or as a directory. -/
def nodeOf (handles : HandleTable ν) (kind : Kind) (handle : ℕ) : Option ν :=
  (handles.get? handle).bind fun opened => if opened.1 = kind then some opened.2 else none

/-- The data of a node; a read of more than `maximum` bytes is refused. -/
def dataOf (maximum : ℕ) (T : Tree ν α σ) (node : ν) (size : ℕ) (offset : ℤ) : Reply α σ :=
  if maximum < size then .failed .invalid
  else
    match T.content node with
    | none => .failed .unreadable
    | some content =>
      if offset < 0 then .failed .unreadable
      else .data ((content.drop offset.toNat).take size)

/-- One request. -/
def serve (maximum : ℕ) (T : Tree ν α σ) : Request α → HandleTable ν → HandleTable ν × Reply α σ
  | .openAs kind writing path, handles =>
    if writing then (handles, .failed .readOnly)
    else
      match T.find path with
      | none => (handles, .failed .missing)
      | some node =>
        let (handles, handle) := handles.allocate (kind, node)
        (handles, .opened handle)
  | .read handle size offset, handles =>
    match nodeOf handles .file handle with
    | none => (handles, .failed .badHandle)
    | some node => (handles, dataOf maximum T node size offset)
  | .list handle, handles =>
    match nodeOf handles .directory handle with
    | none => (handles, .failed .badHandle)
    | some node => (handles, .entries (T.entries node))
  | .status path, handles =>
    match T.find path with
    | none => (handles, .failed .missing)
    | some node => (handles, .status (T.status node))
  | .close kind handle, handles =>
    match nodeOf handles kind handle with
    | none => (handles, .failed .badHandle)
    | some _ => (handles.release handle, .closed kind)

theorem nodeOf_eq_some {handles : HandleTable ν} {kind : Kind} {handle : ℕ} {node : ν} :
    nodeOf handles kind handle = some node ↔ handles.get? handle = some (kind, node) := by
  rw [nodeOf]
  cases hget : handles.get? handle with
  | none => simp
  | some opened =>
    obtain ⟨k, n⟩ := opened
    by_cases hk : k = kind
    · simp [hk]
    · simp [hk]

/-! ## Where handles come from -/

section

variable {T : Tree ν α σ} {handles handles' : HandleTable ν}

/-- What a call does to the handles of a server whose calls may fail: it opens a node that was
found and tells its new handle, it closes a handle, or it changes nothing. -/
inductive HandleStep (T : Tree ν α σ) (handles : HandleTable ν) :
    Option (Kind × List α × ℕ) → HandleTable ν → Prop
  | opened {kind : Kind} {path : List α} {node : ν} (hfind : T.find path = some node) :
      HandleStep T handles (some (kind, path, (handles.allocate (kind, node)).2))
        (handles.allocate (kind, node)).1
  | closed (handle : ℕ) : HandleStep T handles none (handles.release handle)
  | kept : HandleStep T handles none handles

/-- Each handle was told for a path that leads to its node. -/
def Told (T : Tree ν α σ) (told : List (Option (Kind × List α × ℕ))) (handles : HandleTable ν) :
    Prop :=
  ∀ handle kind node, handles.get? handle = some (kind, node) →
    ∃ path, some (kind, path, handle) ∈ told ∧ T.find path = some node

theorem told_empty (told : List (Option (Kind × List α × ℕ))) : Told T told Heap.empty := by
  intro handle kind node hget
  cases hget

theorem Told.step {told : List (Option (Kind × List α × ℕ))} (h : Told T told handles)
    {opening : Option (Kind × List α × ℕ)} (hstep : HandleStep T handles opening handles') :
    Told T (told ++ [opening]) handles' := by
  intro handle kind node hget
  have hold : handles.get? handle = some (kind, node) →
      ∃ path, some (kind, path, handle) ∈ told ++ [opening] ∧ T.find path = some node := by
    intro hget
    obtain ⟨path, hmem, hfind⟩ := h handle kind node hget
    exact ⟨path, List.mem_append_left _ hmem, hfind⟩
  cases hstep with
  | @opened kind' path node' hfind =>
    rw [Heap.get?_allocate] at hget
    split_ifs at hget with hnew
    · cases hget
      exact ⟨path, List.mem_append_right _ (by rw [hnew]; exact List.mem_singleton_self _), hfind⟩
    · exact hold hget
  | closed handle' =>
    rw [Heap.get?_release] at hget
    split_ifs at hget
    exact hold hget
  | kept => exact hold hget

end

end Lib.FileServer
