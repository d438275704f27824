/-
# The events request

`GET /api/v1/events` turns the pairs of its query string into a query of the store. Filters that
no event can match are refused before the store is asked.
-/
import Observatory.Lib.Url
import Observatory.Store.Query

namespace Observatory.Api

open Lib Events Store

inductive RequestError where
  | vmIDNotUuid
  | kindUnregistered
  | conflictingFilters
  | familyUnknown
  | upToNotDecimal
  | limitNotInteger
  | tailNotBoolean

end Observatory.Api
