/-
  LivePreview.Project
  ───────────────────
  **A file tree with a revision and listeners.**

  An accepted operation that announces changes raises the revision by one and then
  tells every listener each change, in the order of their subscription.  A rejected
  operation, and one that finds nothing to do, leave everything as it was.

  Two kinds of listeners subscribe: observers, whose part is to be told
  (`Project.heard`), and module caches, which drop what a change touches.  A listener
  that is subscribed twice is told twice, and loses its first place when it leaves.
-/
import LivePreview.Module.Cache
import LivePreview.Tree.Snapshot

namespace LivePreview

open LivePreview.Lowering (Options Parser)

/-- Who is told about changes. -/
inductive Listener where
  | observer (name : Nat)
  /-- The module cache with a number. -/
  | cache (number : Nat)
  deriving DecidableEq, Repr

/-- A file tree, its revision, and those who follow its changes. -/
structure Project where
  tree : Tree := .empty
  revision : Nat := 0
  /-- The subscribed listeners, in the order of subscription. -/
  listeners : List Listener := []
  /-- All module caches ever made, by number. -/
  caches : List Module.Cache := []
  /-- What observers have been told, in order. -/
  heard : List (Nat × Tree.Change) := []
  deriving Inhabited

namespace Project

/-! ## §1. Announcements -/

/-- Tell a listener a change. -/
def tell (change : Tree.Change) (project : Project) : Listener → Project
  | .observer name => { project with heard := project.heard ++ [(name, change)] }
  | .cache number => { project with caches := project.caches.modify number (·.hear change) }

/-- Tell every listener a change. -/
def deliver (project : Project) (change : Tree.Change) : Project :=
  project.listeners.foldl (tell change) project

/-- Raise the revision and tell the listeners all changes of an operation. -/
def announce (project : Project) : Option (List Tree.Change) → Project
  | some changes => changes.foldl deliver { project with revision := project.revision + 1 }
  | none => project

/-! ## §2. Operations -/

/-- Apply an operation to the tree. -/
def edit {α : Type} (project : Project)
    (operation : Tree → Except Tree.Error (Tree.Outcome α)) :
    Except Tree.Error α × Project :=
  match operation project.tree with
  | .ok outcome =>
    (.ok outcome.answer, { project with tree := outcome.tree }.announce outcome.changes?)
  | .error e => (.error e, project)

/-- Subscribe a listener. -/
def subscribe (project : Project) (listener : Listener) : Project :=
  { project with listeners := project.listeners ++ [listener] }

/-- Take away the first subscription of a listener. -/
def unsubscribe (project : Project) (listener : Listener) : Project :=
  { project with listeners := project.listeners.erase listener }

/-! ## §3. Module caches -/

/-- A new module cache, subscribed; the number is its own. -/
def newCache (project : Project) (options : Options) : Nat × Project :=
  let number := project.caches.length
  let made : Project := { project with caches := project.caches ++ [.new options] }
  (number, made.subscribe (.cache number))

/-- The listener is a cache for a way of lowering; the number is its own. -/
def cacheFor? (project : Project) (options : Options) : Listener → Option Nat
  | .observer _ => none
  | .cache number =>
    match project.caches[number]? with
    | some cache => if cache.options = options then some number else none
    | none => none

/-- The subscribed cache for a way of lowering, or a new one. -/
def attachedCache (project : Project) (options : Options) : Nat × Project :=
  match project.listeners.findSome? (project.cacheFor? options) with
  | some number => (number, project)
  | none => project.newCache options

/-- Take away the subscription of a cache and drop its entries. -/
def closeCache (project : Project) (number : Nat) : Project :=
  { project.unsubscribe (.cache number) with
    caches := project.caches.modify number Module.Cache.clear }

/-- Drop the entries of a cache for a path and everything beneath it, or all of them. -/
def invalidate (project : Project) (number : Nat) (path? : Option Text) : Project :=
  { project with caches := project.caches.modify number (·.invalidate path?) }

/-- The cache with a number. -/
def cacheAt (project : Project) (number : Nat) : Module.Cache :=
  project.caches[number]?.getD (.new {})

/-- Put a cache in place of the one with its number. -/
def setCache (project : Project) (number : Nat) (cache : Module.Cache) : Project :=
  { project with caches := project.caches.set number cache }

/-- The module of a file, by way of a cache. -/
def moduleAt (parser : Parser) (project : Project) (number : Nat) (path : Text) :
    Except Module.Failure Module × Project :=
  let (result, cache) := (project.cacheAt number).moduleAt parser project.tree path
  (result, project.setCache number cache)

end Project

end LivePreview
