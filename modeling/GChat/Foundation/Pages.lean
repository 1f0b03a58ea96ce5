import Mathlib.Data.List.Basic
import Mathlib.Data.List.Infix

/-!
# Pages of a list that grows

A page ends before the entry a cursor names, or at the end of the list, and names its first
entry as the next cursor if there are older entries. Following the cursors reads the list
as it was at the first fetch, while entries are appended to it.
-/

namespace Foundation

variable {α β : Type*}

structure Page (α : Type*) where
  entries : List α
  before : Option String

/-- Where a page ends. -/
def pageEnd (id : α → String) (l : List α) : Option String → Option ℕ
  | none => some l.length
  | some cursor => l.findIdx? fun a => id a == cursor

/-- At most `limit` entries up to the end of the page. -/
def pageAt (id : α → String) (limit : ℕ) (l : List α) (stop : ℕ) : Page α :=
  let start := stop - limit
  let entries := (l.take stop).drop start
  ⟨entries, if 0 < start then entries.head?.map id else none⟩

/-- A page of the list, for a cursor that is in it. -/
def page (id : α → String) (limit : ℕ) (l : List α) (before : Option String) : Option (Page α) :=
  (pageEnd id l before).map (pageAt id limit l)

def Page.map (f : α → β) (p : Page α) : Page β := ⟨p.entries.map f, p.before⟩

section

variable {id : α → String} {limit : ℕ} {l l' : List α} {before : Option String}

theorem pageEnd_le {stop : ℕ} (h : pageEnd id l before = some stop) : stop ≤ l.length := by
  cases before with
  | none =>
      cases h
      exact le_refl _
  | some cursor => exact (List.findIdx?_eq_some_iff_getElem.mp h).1.le

/-- A page and what is before it. -/
theorem take_pageAt (l : List α) (stop : ℕ) :
    l.take (stop - limit) ++ (pageAt id limit l stop).entries = l.take stop := by
  have htake : (l.take stop).take (stop - limit) = l.take (stop - limit) := by
    rw [List.take_take, Nat.min_eq_left (Nat.sub_le stop limit)]
  rw [pageAt, ← htake, List.take_append_drop]

theorem head_pageAt {stop : ℕ} (hlimit : 0 < limit) (hstart : 0 < stop - limit) :
    (pageAt id limit l stop).entries.head? = l[stop - limit]? := by
  rw [pageAt, List.head?_drop, List.getElem?_take_of_lt (by omega)]

/-- A page is the last one exactly if nothing is before it. -/
theorem before_pageAt {stop : ℕ} (hlimit : 0 < limit) (hstop : stop ≤ l.length) :
    (pageAt id limit l stop).before = none ↔ l.take (stop - limit) = [] := by
  by_cases hstart : 0 < stop - limit
  · have hhead : (pageAt id limit l stop).entries.head? = l[stop - limit]? :=
      head_pageAt hlimit hstart
    rw [List.getElem?_eq_getElem (by omega)] at hhead
    have hbefore : (pageAt id limit l stop).before =
        (pageAt id limit l stop).entries.head?.map id := if_pos hstart
    rw [hbefore, hhead, List.take_eq_nil_iff]
    constructor
    · intro h
      cases h
    · rintro (h | rfl)
      · omega
      · simp only [List.length_nil] at hstop
        omega
  · have hbefore : (pageAt id limit l stop).before = none := if_neg hstart
    have hzero : stop - limit = 0 := by omega
    rw [hbefore, hzero]
    simp

/-- What a page leaves out: the entries before it, none if it is the last one, and those from
the cursor on. -/
theorem page_spec {p : Page α} (hlimit : 0 < limit) (h : page id limit l before = some p) :
    ∃ older newer, l = older ++ p.entries ++ newer ∧ (p.before = none ↔ older = []) ∧
      (before = none → newer = []) ∧
      ∀ cursor, before = some cursor → newer.head?.map id = some cursor := by
  obtain ⟨stop, hstop, rfl⟩ := Option.map_eq_some_iff.mp h
  refine ⟨l.take (stop - limit), l.drop stop, ?_, before_pageAt hlimit (pageEnd_le hstop), ?_, ?_⟩
  · rw [take_pageAt, List.take_append_drop]
  · rintro rfl
    cases hstop
    exact List.drop_length
  · rintro cursor rfl
    obtain ⟨hlt, hid, -⟩ := List.findIdx?_eq_some_iff_getElem.mp hstop
    rw [List.head?_drop, List.getElem?_eq_getElem hlt, Option.map_some, beq_iff_eq.mp hid]

theorem mem_page {p : Page α} {a : α} (h : page id limit l before = some p)
    (ha : a ∈ p.entries) : a ∈ l := by
  obtain ⟨stop, -, rfl⟩ := Option.map_eq_some_iff.mp h
  exact List.mem_of_mem_take (List.mem_of_mem_drop ha)

/-- A page of mapped entries is the mapped page. -/
theorem page_map (id : β → String) (f : α → β) (limit : ℕ) (l : List α)
    (before : Option String) :
    page id limit (l.map f) before = (page (fun a => id (f a)) limit l before).map (Page.map f) := by
  have hstop : pageEnd id (l.map f) before = pageEnd (fun a => id (f a)) l before := by
    cases before with
    | none => rw [pageEnd, pageEnd, List.length_map]
    | some cursor =>
        rw [pageEnd, pageEnd, List.findIdx?_map]
        rfl
  rw [page, page, hstop, Option.map_map]
  congr 1
  funext stop
  simp only [Function.comp_apply, pageAt, Page.map, ← List.map_take, ← List.map_drop,
    List.head?_map, Option.map_map]
  rfl

/-- An entry of a list without repeated ids is where its id is found. -/
theorem pageEnd_of_nodup (hnodup : (l.map id).Nodup) {k : ℕ} {a : α} (h : l[k]? = some a) :
    pageEnd id l (some (id a)) = some k := by
  obtain ⟨hk, rfl⟩ := List.getElem?_eq_some_iff.mp h
  rw [pageEnd, List.findIdx?_eq_some_iff_getElem]
  refine ⟨hk, by simp, ?_⟩
  intro j hj
  simp only [beq_iff_eq]
  intro heq
  have hne := List.pairwise_iff_getElem.mp hnodup j k (by rw [List.length_map]; omega)
    (by rw [List.length_map]; exact hk) hj
  simp only [List.getElem_map] at hne
  exact hne heq

end

/-- The pages that are read by following the cursors. Each fetch is of the next version of
what is read. -/
inductive Follows (fetch : ℕ → Option String → Option (Page α)) :
    ℕ → Option String → List (List α) → Prop
  | last {n : ℕ} {before : Option String} {entries : List α} :
      fetch n before = some ⟨entries, none⟩ → Follows fetch n before [entries]
  | more {n : ℕ} {before : Option String} {entries : List α} {cursor : String}
      {pages : List (List α)} :
      fetch n before = some ⟨entries, some cursor⟩ → Follows fetch (n + 1) (some cursor) pages →
      Follows fetch n before (entries :: pages)

/-- A fetch that maps entries leads to the mapped pages. -/
theorem Follows.map {fetch : ℕ → Option String → Option (Page α)}
    {fetch' : ℕ → Option String → Option (Page β)} {f : List α → List β}
    (h : ∀ n before p, fetch n before = some p → fetch' n before = some ⟨f p.entries, p.before⟩)
    {n : ℕ} {before : Option String} {pages : List (List α)}
    (hpages : Follows fetch n before pages) : Follows fetch' n before (pages.map f) := by
  induction hpages with
  | last hfetch => exact Follows.last (h _ _ _ hfetch)
  | more hfetch _ ih => exact Follows.more (h _ _ _ hfetch) ih

/-- The pages are determined by the fetches. -/
theorem Follows.unique {fetch : ℕ → Option String → Option (Page α)} {n : ℕ}
    {before : Option String} {pages pages' : List (List α)} (h : Follows fetch n before pages)
    (h' : Follows fetch n before pages') : pages = pages' := by
  induction h generalizing pages' with
  | last hfetch =>
      cases h' with
      | last hfetch' =>
          rw [hfetch] at hfetch'
          cases hfetch'
          rfl
      | more hfetch' =>
          rw [hfetch] at hfetch'
          cases hfetch'
  | more hfetch _ ih =>
      cases h' with
      | last hfetch' =>
          rw [hfetch] at hfetch'
          cases hfetch'
      | more hfetch' hrest =>
          rw [hfetch] at hfetch'
          cases hfetch'
          rw [ih hrest]

section

variable {id : α → String} {limit : ℕ} {l : ℕ → List α} {f : α → β}

/-- From the end of a page on, the pages are the entries up to it, as far as `f` sees them;
the rest of an entry may change meanwhile. -/
theorem follows_page (hlimit : 0 < limit) (hid : ∀ a b, f a = f b → id a = id b)
    (hgrow : ∀ n, (l n).map f <+: (l (n + 1)).map f) (hnodup : ∀ n, ((l n).map id).Nodup)
    (stop : ℕ) (n : ℕ) (before : Option String) (hstop : pageEnd id (l n) before = some stop) :
    ∃ pages, Follows (fun n => page id limit (l n)) n before pages ∧
      pages.reverse.flatten.map f = ((l n).take stop).map f := by
  induction stop using Nat.strong_induction_on generalizing n before with
  | _ stop ih =>
      have hle := pageEnd_le hstop
      have hpage : page id limit (l n) before = some (pageAt id limit (l n) stop) := by
        rw [page, hstop, Option.map_some]
      have htake : (l n).take (stop - limit) ++ (pageAt id limit (l n) stop).entries =
          (l n).take stop := take_pageAt (l n) stop
      cases hbefore : (pageAt id limit (l n) stop).before with
      | none =>
          have hnil := (before_pageAt hlimit hle).mp hbefore
          refine ⟨[(pageAt id limit (l n) stop).entries], Follows.last ?_, ?_⟩
          · rw [hpage, ← hbefore]
          · rw [← htake, hnil]
            simp
      | some cursor =>
          have hstart : 0 < stop - limit := by
            by_contra hzero
            have hnone : (pageAt id limit (l n) stop).before = none := if_neg hzero
            rw [hnone] at hbefore
            cases hbefore
          have hcursor : (pageAt id limit (l n) stop).before =
              (pageAt id limit (l n) stop).entries.head?.map id := if_pos hstart
          rw [hbefore, head_pageAt hlimit hstart] at hcursor
          obtain ⟨a, ha, rfl⟩ := Option.map_eq_some_iff.mp hcursor.symm
          obtain ⟨rest, hrest⟩ := hgrow n
          have hmap : (l (n + 1))[stop - limit]?.map f = some (f a) := by
            rw [← List.getElem?_map, ← hrest,
              List.getElem?_append_left (by rw [List.length_map]; omega), List.getElem?_map, ha]
            rfl
          obtain ⟨a', ha', hsame⟩ := Option.map_eq_some_iff.mp hmap
          have hnext := pageEnd_of_nodup (hnodup (n + 1)) ha'
          rw [hid a' a hsame] at hnext
          obtain ⟨pages, hfollows, hflatten⟩ := ih (stop - limit) (by omega) (n + 1) _ hnext
          have hprefix : ((l (n + 1)).take (stop - limit)).map f =
              ((l n).take (stop - limit)).map f := by
            rw [List.map_take, List.map_take, ← hrest,
              List.take_append_of_le_length (by rw [List.length_map]; omega)]
          refine ⟨(pageAt id limit (l n) stop).entries :: pages, Follows.more ?_ hfollows, ?_⟩
          · rw [hpage, ← hbefore]
          · rw [List.reverse_cons, List.flatten_append, List.map_append, hflatten, hprefix,
              ← htake, List.map_append]
            simp

/-- Following the cursors ends, with every entry of the first version once and in order. -/
theorem follows_all (hlimit : 0 < limit) (hid : ∀ a b, f a = f b → id a = id b)
    (hgrow : ∀ n, (l n).map f <+: (l (n + 1)).map f) (hnodup : ∀ n, ((l n).map id).Nodup) :
    ∃ pages, Follows (fun n => page id limit (l n)) 0 none pages ∧
      pages.reverse.flatten.map f = (l 0).map f := by
  obtain ⟨pages, hfollows, hflatten⟩ :=
    follows_page hlimit hid hgrow hnodup (l 0).length 0 none rfl
  exact ⟨pages, hfollows, by rw [hflatten, List.take_length]⟩

end

end Foundation
