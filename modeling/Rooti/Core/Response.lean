import Rooti.Core.Pagination

/-!
# Responses of listings

The routers answer a page in the shape the clients know.  Its metadata are computed anew from
the page, the size and the number of elements.
-/

namespace Rooti

variable {α : Type}

/-- `math.ceil(a / b)`, the quotient taken exactly. -/
def Py.ceilDiv (a b : ℤ) : ℤ := -(-a / b)

/-- `PageResponse`. -/
structure PageResponse (α : Type) where
  content : List α
  page : ℤ
  size : ℤ
  totalElements : ℤ
  totalPages : ℤ
  hasNext : Bool
  hasPrevious : Bool

namespace PageResponse

/-- `total_pages` of a `PageResponse`. -/
def countPages (totalElements size : ℤ) : ℤ :=
  if 0 < size then max 1 (Py.ceilDiv totalElements size) else 0

/-- `PageResponse.of`. -/
def of (content : List α) (page size totalElements : ℤ) : PageResponse α where
  content := content
  page := page
  size := size
  totalElements := totalElements
  totalPages := countPages totalElements size
  hasNext := decide (page + 1 < countPages totalElements size)
  hasPrevious := decide (0 < page)

end PageResponse

/-- The router answers what the service has built. -/
def Page.toResponse (p : Page α) : PageResponse α :=
  .of p.content p.page p.size p.totalElements

end Rooti
