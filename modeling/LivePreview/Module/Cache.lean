/-
  LivePreview.Module.Cache
  ────────────────────────
  **Modules of files, kept until the files change.**

  A cache keeps for every path the content it has seen last and what became of it, a
  module or an error.  It listens to the changes of a tree and drops what they touch
  (`Cache.hear`).  An entry counts only for a content equal to that it was made from, so
  that a cache that misses changes is never wrong, only slower.
-/
import LivePreview.Json.Basic
import LivePreview.Module.Basic
import LivePreview.Tree.Basic
import LivePreview.Tree.Query

namespace LivePreview.Module

open LivePreview.Lowering (Options Parser)

/-- A content and what became of it. -/
structure Entry where
  content : Json
  result : Except Error Module

/-- The modules kept for one way of lowering. -/
structure Cache where
  options : Options
  entries : Std.ExtTreeMap Text Entry compare := ∅
  /-- How often a kept result was used. -/
  hits : Nat := 0
  /-- How often a file had to be transformed. -/
  misses : Nat := 0

/-- Why a path has no module. -/
inductive Failure where
  | tree (error : Tree.Error)
  | noModule (error : Error)
  | breakdown (breakdown : Breakdown)

namespace Cache

/-- A cache without entries. -/
def new (options : Options) : Cache :=
  { options := options }

/-! ## §1. Dropping entries -/

/-- Drop the entry of a path. -/
def drop (cache : Cache) (path : Text) : Cache :=
  { cache with entries := cache.entries.erase path }

/-- Drop the entries of a path and of everything beneath it. -/
def dropWithin (cache : Cache) (directory : Text) : Cache :=
  { cache with entries := cache.entries.filter fun path _ => !Path.isWithin path directory }

/-- Drop all entries. -/
def clear (cache : Cache) : Cache :=
  { cache with entries := ∅ }

/-- Drop what a change touches. -/
def hear (cache : Cache) : Tree.Change → Cache
  | .created _ .directory => cache
  | .created path .file | .modified path | .deleted path .file => cache.drop path
  | .deleted path .directory | .renamed path _ _ => cache.dropWithin path

/-- Drop the entries of a path and of everything beneath it, or all entries. -/
def invalidate (cache : Cache) : Option Text → Cache
  | some path => cache.dropWithin (Path.normalize path)
  | none => cache.clear

/-! ## §2. Modules -/

/-- Keep what became of a file. -/
def keep (cache : Cache) (path : Text) (entry : Entry) : Cache :=
  { cache with entries := cache.entries.insert path entry }

/-- The kept result for a path, if it was made from the content. -/
def lookup? (cache : Cache) (path : Text) (content : Json) : Option (Except Error Module) :=
  match cache.entries[path]? with
  | some entry =>
    if entry.content = content || entry.content.agrees content then some entry.result else none
  | none => none

/-- An error or a module as the answer to a request. -/
def answerOf : Except Error Module → Except Failure Module
  | .ok result => .ok result
  | .error e => .error (.noModule e)

/-- The module of a content, kept or made anew. -/
def moduleOf (parser : Parser) (cache : Cache) (path : Text) (content : Json) :
    Except Failure Module × Cache :=
  match cache.lookup? path content with
  | some result => (answerOf result, { cache with hits := cache.hits + 1 })
  | none =>
    let counted := { cache with misses := cache.misses + 1 }
    match ofContent parser cache.options path content with
    | .ok result => (answerOf result, counted.keep path ⟨content, result⟩)
    | .error breakdown => (.error (.breakdown breakdown), counted)

/-- The module of a file. -/
def moduleAt (parser : Parser) (tree : Tree) (cache : Cache) (path : Text) :
    Except Failure Module × Cache :=
  match tree.read path with
  | .ok content => cache.moduleOf parser (Path.normalize path) content
  | .error e => (.error (.tree e), cache)

end Cache

end LivePreview.Module
