import BlitzedServices.ChanServ.Access
import BlitzedServices.Lib.SqlText

/-!
# Statements with a list of numbers

`mysql_build_query` turns a list such as `2,5-8` into a condition on a column, and
`mysql_build_query_match_mask` one of masks. The first reads the list much as `process_numlist` does, but
with `strtoul`, and it cuts numbers to a maximum instead of leaving them out.
-/

set_option autoImplicit false
set_option relaxedAutoImplicit false

namespace BlitzedServices.Mysql

open Lib
open ChanServ (strtolRest)

/-- `strtoul`, stored in an `unsigned int`. -/
def readUnsigned (s : CString) : ℕ :=
  ((strtoul s).setWidth 32).toNat

/-- One item of a list, up to the next comma: the ends of a range, cut to the maximum. -/
def queryRange (max : ℕ) (item : CString) : ℕ × ℕ :=
  let n1 := readUnsigned item
  let stop := fun c : Char ↦ !(c.isDigit || c == ',' || c == '-')
  let n2 :=
    match (strtolRest item).dropWhile stop with
    | '-' :: rest =>
      let rest := rest.dropWhile fun c ↦ !(c.isDigit || c == ',')
      if rest.head?.any Char.isDigit then readUnsigned rest else n1
    | _ => n1
  (min n1 max, min n2 max)

/-- The items of a list. A comma at the end adds none. -/
def numlistItems (numstr : CString) : List CString :=
  let items := numstr.splitOn ','
  if items.getLast? = some [] then items.dropLast else items

/-- The ranges for which `mysql_build_query` makes a clause. One that descends gets none. -/
def queryRanges (numstr : CString) (max : ℕ) : List (ℕ × ℕ) :=
  ((numlistItems numstr).map (queryRange max)).filter fun (n1, n2) ↦ n1 ≤ n2

/-- The text of a clause. -/
def rangeClause (column : CString) (range : ℕ × ℕ) : CString :=
  if range.1 = range.2 then
    "(".toList ++ column ++ " = ".toList ++ decimal range.1 ++ ")".toList
  else
    "(".toList ++ column ++ " BETWEEN ".toList ++ decimal range.1 ++ " AND ".toList ++
      decimal range.2 ++ ")".toList

/-- `mysql_build_query`. -/
def mysqlBuildQuery (numstr base column : CString) (max : ℕ) : CString :=
  base ++ " || ".toList.intercalate ((queryRanges numstr max).map (rangeClause column))

/-- The clauses hold of a number. -/
def inRanges (ranges : List (ℕ × ℕ)) (i : ℕ) : Bool :=
  ranges.any fun (n1, n2) ↦ n1 ≤ i && i ≤ n2

end BlitzedServices.Mysql
