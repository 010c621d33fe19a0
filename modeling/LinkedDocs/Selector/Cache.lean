import LinkedDocs.Request

/-!
# Remembered selectors

Reading a written selector again is avoided by keeping the most recently used ones. A cache of
capacity zero remembers nothing. Texts that are no selector are not kept, and do not count as a use.
-/

namespace LinkedDocs

/-- Selectors by their text, the most recently used first. -/
structure SelectorCache where
  capacity : Nat
  entries : List (String × Selector)

namespace SelectorCache

/-- A cache that has seen nothing. -/
def ofCapacity (capacity : Nat) : SelectorCache := ⟨capacity, []⟩

/-- Number of selectors that are kept. -/
def size (cache : SelectorCache) : Nat := cache.entries.length

/-- Makes a text the most recently used one; the least recently used one beyond the capacity goes.
-/
def use (cache : SelectorCache) (text : String) (selector : Selector) : SelectorCache :=
  { cache with
    entries :=
      ((text, selector) :: cache.entries.filter fun pair => pair.1 != text).take cache.capacity }

/-- Reads a written selector, or remembers it. -/
def read (text : String) : Reading SelectorCache Selector := do
  let cache ← get
  match cache.entries.lookup text with
  | some selector => set (cache.use text selector); return selector
  | none =>
    match Selector.read text with
    | .ok selector => set (cache.use text selector); return selector
    | .error error => throw error

/-- Reads any form of a selector through the cache. -/
def selectorOf (form : Value) : Reading SelectorCache Selector := Selector.ofValueWith read form

/-- Reads a request through the cache. -/
def requestOf (value : Value) : Reading SelectorCache Request := Request.ofValueWith read value

end SelectorCache

end LinkedDocs
