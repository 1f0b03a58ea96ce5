import GChat.Catalog.Refresh
import GChat.Foundation.Gathering

/-!
# The limits of a refresh

A refresh sends at most ten requests to each catalog, keeps for each channel the descriptor that
expires last, and leaves the cache where a page or a cursor is not in order. The limit on the
descriptors ends the page that reaches it; every later page may still add one.
-/

namespace GChat

namespace Catalog

open Foundation

/-- What a reading asked for, and the descriptors of each page it took. -/
structure Trace where
  requests : List CatalogRequest
  pages : List (List PublicChannelDescriptor)

section Reading

variable (lib : Library) (httpsOnly : Bool) (now : ℕ)

/-- `readPages` with what it asked for and took. -/
def tracePages (answers : Answers) (base : Url) :
    (left index : ℕ) → Option String → List String → Found → Except String Found × Trace
  | 0, _, _, _, found => (.ok found, ⟨[], []⟩)
  | left + 1, index, cursor, cursors, found =>
      match lib.join base "v1/catalog" with
      | .error message => (.error message, ⟨[], []⟩)
      | .ok url =>
          let request : CatalogRequest := ⟨url, catalogPageSize, cursor⟩
          match answers index request with
          | .error error =>
              (.ok { found with lastError := some s!"{lib.display base}: {error}" },
                ⟨[request], []⟩)
          | .ok response =>
              if response.status < 200 ∨ 300 ≤ response.status then
                (.ok { found with
                  lastError := some s!"{lib.display base}: HTTP {response.status}" },
                    ⟨[request], []⟩)
              else
                match lib.fromSlice response.body with
                | .error error => (.error s!"invalid catalog response: {error}", ⟨[request], []⟩)
                | .ok page =>
                    if catalogPageSize < page.descriptors.length then
                      (.error "catalog page exceeds limit", ⟨[request], []⟩)
                    else
                      let found := found.add lib httpsOnly now page
                      let trace : Trace := ⟨[request], [page.descriptors]⟩
                      match page.nextCursor with
                      | none => (.ok found, trace)
                      | some next =>
                          if next.isEmpty || catalogMaxCursorBytes < next.utf8ByteSize then
                            (.error "catalog pagination cursor is out of bounds", trace)
                          else if cursors.contains next then
                            (.error "catalog repeated pagination cursor", trace)
                          else if left == 0 then
                            (.error "catalog pagination exceeds page limit", trace)
                          else
                            let rest := tracePages answers base left (index + 1) (some next)
                              (next :: cursors) found
                            (rest.1, ⟨request :: rest.2.requests,
                              page.descriptors :: rest.2.pages⟩)

/-- `readCatalogs` with what it asked each catalog for and took from it. -/
def traceCatalogs (net : ℕ → Answers) :
    List Url → ℕ → Found → Except String Found × List Trace
  | [], _, found => (.ok found, [])
  | base :: rest, position, found =>
      let read := tracePages lib httpsOnly now (net position) base catalogMaxPages 0 none [] found
      match read.1 with
      | .error message => (.error message, [read.2])
      | .ok found =>
          let more := traceCatalogs net rest (position + 1) found
          (more.1, read.2 :: more.2)

variable {lib httpsOnly now} {answers : Answers} {base : Url} {left index : ℕ}
  {cursor : Option String} {cursors : List String} {found : Found}

theorem tracePages_fst :
    (tracePages lib httpsOnly now answers base left index cursor cursors found).1 =
      readPages lib httpsOnly now answers base left index cursor cursors found := by
  induction left generalizing index cursor cursors found with
  | zero => rfl
  | succ left ih =>
      rw [tracePages, readPages]
      cases lib.join base "v1/catalog" with
      | error message => rfl
      | ok url =>
          dsimp only [bind, Except.bind]
          cases answers index ⟨url, catalogPageSize, cursor⟩ with
          | error error => rfl
          | ok response =>
              dsimp only
              by_cases hstatus : response.status < 200 ∨ 300 ≤ response.status
              · rw [if_pos hstatus, if_pos hstatus]
              rw [if_neg hstatus, if_neg hstatus]
              cases lib.fromSlice response.body with
              | error error => rfl
              | ok page =>
                  dsimp only [Except.mapError]
                  by_cases hsize : catalogPageSize < page.descriptors.length
                  · rw [if_pos hsize, refuse, decide_eq_true hsize]
                    rfl
                  rw [if_neg hsize, refuse, decide_eq_false hsize]
                  cases page.nextCursor with
                  | none => rfl
                  | some next =>
                      dsimp only
                      cases hbounds : next.isEmpty ||
                          decide (catalogMaxCursorBytes < next.utf8ByteSize) with
                      | true => rfl
                      | false =>
                          cases hseen : cursors.contains next with
                          | true => rfl
                          | false =>
                              cases hlast : left == 0 with
                              | true => rfl
                              | false => exact ih

end Reading

end Catalog

end GChat
