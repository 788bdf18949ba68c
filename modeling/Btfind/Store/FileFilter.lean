import Btfind.Library.Like
import Btfind.Store.Search

/-!
# The file filter

The files of a torrent whose paths contain a query. The query is escaped, so `LIKE` finds the query
itself and nothing that it would stand for as a pattern. The collation of the paths is a parameter.
-/

namespace Btfind

/-- `LIKE ? ESCAPE '!'` -/
def likeSymbols : Like.Symbols Char where
  any := '%'
  one := '_'
  escape := '!'
  any_ne_one := by decide
  any_ne_escape := by decide
  one_ne_escape := by decide

/-- The pattern of `search_files_page`. -/
def filePattern (query : String) : String :=
  String.ofList ('%' :: (Like.replace '_' ['!', '_'] (Like.replace '%' ['!', '%']
    (Like.replace '!' ['!', '!'] query.toList)) ++ ['%']))

/-- The collation of `files.path`. -/
structure Collation where
  /-- `ORDER BY path` -/
  le : String → String → Bool
  /-- `LIKE` compares a character of the pattern and one of the path. -/
  same : Char → Char → Bool

/-- `path LIKE ? ESCAPE '!'` -/
def pathLike (same : Char → Char → Bool) (path pattern : String) : Bool :=
  Like.like same likeSymbols path.toList pattern.toList

/-- `WHERE torrent_id=? AND path LIKE ? ESCAPE '!'`, in id order. -/
def selectedFiles (same : Char → Char → Bool) (hash : InfoHash) (query : String) (c : Catalogue) :
    List FileRow :=
  (filesOf hash c.files).filter fun f => pathLike same f.path (filePattern query)

structure FileSearchPage where
  results : List (String × Int)
  hasNext : Bool
  deriving DecidableEq

/-- `search_files_page`; one row more than the page holds tells whether there is a next one. -/
def searchFilesPage (coll : Collation) (hash : InfoHash) (query : String) (limit offset : Nat)
    (c : Catalogue) : FileSearchPage :=
  -- The sort is stable: rows with equal paths stay in id order.
  let ordered := (selectedFiles coll.same hash query c).mergeSort fun f g => coll.le f.path g.path
  let results := (ordered.drop offset).take (min (limit + 1) (2 ^ 64 - 1))
  ⟨(results.take limit).map fun f => (f.path, f.size), decide (limit < results.length)⟩

theorem toList_filePattern (query : String) : (filePattern query).toList =
    likeSymbols.any :: (Like.escapeText likeSymbols query.toList ++ [likeSymbols.any]) :=
  String.toList_ofList

/-- A path is found when a part of it compares equal to the query. -/
theorem pathLike_filePattern (same : Char → Char → Bool) (query path : String) :
    pathLike same path (filePattern query) = Like.contains same query.toList path.toList := by
  rw [pathLike, toList_filePattern]
  exact Like.like_escaped same likeSymbols path.toList query.toList

/-- With characters compared for equality, a path is like the pattern of a query when it contains
the query. -/
theorem file_filter_literal (query path : String) :
    pathLike (fun x y => decide (x = y)) path (filePattern query) = true ↔
      query.toList <:+: path.toList := by
  rw [pathLike_filePattern]
  exact Like.contains_eq_iff

example : (["a!_%b", "a!xyb", "a_%b"].filter fun path =>
    pathLike (fun x y => decide (x = y)) path (filePattern "!_%")) = ["a!_%b"] := by decide

end Btfind
