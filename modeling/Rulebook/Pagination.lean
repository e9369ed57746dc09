import Rulebook.Schema.Scalar
/-!
# Pages of a list

A page starts at an offset and holds at most a number of items. A negative offset or end counts from
the end of the list.
-/

namespace Rulebook

/-- What a page says about itself. -/
structure PageInfo where
  /-- The number of items in the whole list. -/
  total : Int
  /-- The most items on a page. -/
  limit : Int
  /-- The position of the first item. -/
  offset : Int
  /-- The number of items on this page. -/
  count : Int
  /-- Whether there are items after this page. -/
  hasNext : Bool
deriving DecidableEq, Repr

namespace PageInfo

/-- Reads a page's account of itself. -/
def read : Schema PageInfo := Schema.model "PaginationMeta" fun fs =>
  PageInfo.mk
    <$> Schema.required fs "total" Schema.int
    <*> Schema.required fs "limit" Schema.int
    <*> Schema.required fs "offset" Schema.int
    <*> Schema.required fs "count" Schema.int
    <*> Schema.required fs "has_next" Schema.bool

/-- The payload of a page's account of itself. -/
def toValue (p : PageInfo) : Value :=
  .object [("total", .int p.total), ("limit", .int p.limit), ("offset", .int p.offset),
    ("count", .int p.count), ("has_next", .bool p.hasNext)]

end PageInfo

/-- The position in a list of `size` items that a number stands for. -/
def position (size : Nat) (n : Int) : Nat :=
  if n < 0 then (n + size).toNat else min n.toNat size

/-- A page of a list. -/
def page {α : Type} (items : List α) (limit offset : Int) : List α × PageInfo :=
  let first := position items.length offset
  let after := position items.length (offset + limit)
  let page := (items.drop first).take (after - first)
  (page, ⟨items.length, limit, offset, page.length, decide (offset + page.length < items.length)⟩)

end Rulebook
