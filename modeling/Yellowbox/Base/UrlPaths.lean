import Yellowbox.Base.Cuts

/-!
The path of a URL, for URLs that consist of a path with a query and a fragment or without
them. Python's `urlparse` also splits parameters off the last segment of the path.
-/
namespace Yellowbox.UrlPaths

open Cuts

abbrev Text := List Char

/-- What comes before the fragment and the query. -/
def beforeQuery (url : Text) : Text := (cut '?' (cut '#' url).1).1

/-- The path without the parameters, which follow a semicolon in its last segment. -/
def splitParams (path : Text) : Text :=
  let segments := path.splitOn '/'
  ['/'].intercalate (segments.dropLast ++ [(cut ';' (segments.getLastD [])).1])

/-- `urllib.parse.urlparse(url).path`, for a URL without scheme and authority. -/
def urlPath (url : Text) : Text := splitParams (beforeQuery url)

example : urlPath "/a;x/b;y?c=1".toList = "/a;x/b".toList := by decide

variable {text path : Text}

theorem beforeQuery_of_not_mem (hfragment : '#' ∉ text) (hquery : '?' ∉ text) :
    beforeQuery text = text := by
  rw [beforeQuery, cut_of_not_mem hfragment, cut_of_not_mem hquery]

theorem beforeQuery_isPrefix (text : Text) : beforeQuery text <+: text :=
  (cut_isPrefix '?' _).trans (cut_isPrefix '#' text)

/-- Nothing of the fragment or the query is left. -/
theorem not_mem_beforeQuery (text : Text) :
    '#' ∉ beforeQuery text ∧ '?' ∉ beforeQuery text :=
  ⟨fun hmem => not_mem_cut '#' text ((cut_isPrefix '?' _).subset hmem), not_mem_cut '?' _⟩

theorem splitParams_of_not_mem (h : ';' ∉ path) : splitParams path = path := by
  have hsegments := List.splitOn_ne_nil '/' path
  have hlast : (path.splitOn '/').getLastD [] = (path.splitOn '/').getLast hsegments := by
    rw [List.getLastD_eq_getLast?, List.getLast?_eq_some_getLast hsegments]
    rfl
  have hcut : ';' ∉ (path.splitOn '/').getLast hsegments :=
    not_mem_of_mem_splitOn (by decide) h _ (List.getLast_mem hsegments)
  rw [splitParams, hlast, cut_of_not_mem hcut, List.dropLast_append_getLast hsegments,
    List.intercalate_splitOn]

/-- A path without any of the marks is the path of its URL. -/
theorem urlPath_of_not_mem (hfragment : '#' ∉ path) (hquery : '?' ∉ path) (hparams : ';' ∉ path) :
    urlPath path = path := by
  rw [urlPath, beforeQuery_of_not_mem hfragment hquery, splitParams_of_not_mem hparams]

/-- A query has no part in it. -/
theorem urlPath_query (hfragment : '#' ∉ path) (hquery : '?' ∉ path) (hparams : ';' ∉ path)
    (query : Text) : urlPath (path ++ '?' :: query) = path := by
  have hmark : '?' ≠ '#' := by decide
  rw [urlPath, beforeQuery, cut_append_left hfragment, cut, if_neg hmark, cut_append hquery,
    splitParams_of_not_mem hparams]

end Yellowbox.UrlPaths
