import Mathlib.Data.List.Infix

/-!
# Gathering keys up to a limit

Keys are kept in the order they first come. `gather` goes through one page and stops behind the
item that reaches the limit, so that a page that begins at the limit can still add its first key.
The pages stay within the limit exactly if none of them does.
-/

namespace Foundation

variable {κ : Type*} [DecidableEq κ]

/-- Keep a key that is new. -/
def keep (kept : List κ) : Option κ → List κ
  | none => kept
  | some key => if key ∈ kept then kept else kept ++ [key]

/-- The keys of the items in the order they first come. -/
def distinct (items : List (Option κ)) : List κ := items.foldl keep []

/-- Keep the keys of a page until the limit is reached. -/
def gather (limit : ℕ) (kept : List κ) : List (Option κ) → List κ
  | [] => kept
  | item :: rest =>
      if limit ≤ (keep kept item).length then keep kept item
      else gather limit (keep kept item) rest

def gatherPages (limit : ℕ) (pages : List (List (Option κ))) : List κ :=
  pages.foldl (gather limit) []

/-- A page begins with no key, or with one of the keys. -/
def BeginsIn (keys : List κ) (page : List (Option κ)) : Prop :=
  ∀ key, page.head? = some (some key) → key ∈ keys

/-- Every page that comes at the limit begins with no new key. -/
def WithinLimit (limit : ℕ) (pages : List (List (Option κ))) : Prop :=
  ∀ front page back, pages = front ++ page :: back →
    limit ≤ (distinct front.flatten).length →
      BeginsIn ((distinct front.flatten).take limit) page

variable {limit : ℕ} {kept : List κ}

theorem prefix_keep (kept : List κ) (item : Option κ) : kept <+: keep kept item := by
  cases item with
  | none => exact List.prefix_rfl
  | some key =>
      rw [keep]
      split
      · exact List.prefix_rfl
      · exact List.prefix_append kept [key]

theorem prefix_foldl_keep (kept : List κ) (items : List (Option κ)) :
    kept <+: items.foldl keep kept := by
  induction items generalizing kept with
  | nil => exact List.prefix_rfl
  | cons item items ih => exact (prefix_keep kept item).trans (ih _)

theorem length_keep_le (kept : List κ) (item : Option κ) :
    (keep kept item).length ≤ kept.length + 1 := by
  cases item with
  | none => exact Nat.le_succ _
  | some key =>
      rw [keep]
      split
      · exact Nat.le_succ _
      · rw [List.length_append, List.length_singleton]

theorem take_eq_of_front {l k : List κ} (h : l <+: k) (hl : l.length = limit) :
    k.take limit = l := by
  obtain ⟨back, rfl⟩ := h
  exact List.take_left' hl

/-- Below the limit a page is gathered up to it. -/
theorem gather_of_lt (hlt : kept.length < limit) (items : List (Option κ)) :
    gather limit kept items = (items.foldl keep kept).take limit := by
  induction items generalizing kept with
  | nil => exact (List.take_of_length_le (Nat.le_of_lt hlt)).symm
  | cons item items ih =>
      have hle := length_keep_le kept item
      rw [gather, List.foldl_cons]
      split
      next hfull =>
        have hlength : (keep kept item).length = limit := by omega
        exact (take_eq_of_front (prefix_foldl_keep _ items) hlength).symm
      next hroom => exact ih (Nat.not_le.mp hroom)

/-- At the limit a page adds its first key, if it is new. -/
theorem gather_of_eq (heq : kept.length = limit) (page : List (Option κ)) :
    (BeginsIn kept page → gather limit kept page = kept) ∧
      (¬ BeginsIn kept page → limit < (gather limit kept page).length) := by
  cases page with
  | nil =>
      refine ⟨fun _ => rfl, fun h => absurd ?_ h⟩
      exact fun key hkey => nomatch hkey
  | cons item page =>
      have hlength := (prefix_keep kept item).length_le
      rw [gather, if_pos (heq ▸ hlength)]
      cases item with
      | none =>
          refine ⟨fun _ => rfl, fun h => absurd ?_ h⟩
          exact fun key hkey => nomatch hkey
      | some key =>
          rw [keep]
          by_cases hkey : key ∈ kept
          · rw [if_pos hkey]
            refine ⟨fun _ => rfl, fun h => absurd ?_ h⟩
            rintro other ⟨rfl⟩
            exact hkey
          · rw [if_neg hkey]
            refine ⟨fun h => absurd (h key rfl) hkey, fun _ => ?_⟩
            rw [List.length_append, List.length_singleton, heq]
            exact Nat.lt_succ_self _

theorem length_le_gather (kept : List κ) (page : List (Option κ)) :
    kept.length ≤ (gather limit kept page).length := by
  induction page generalizing kept with
  | nil => exact le_rfl
  | cons item page ih =>
      have hlength := (prefix_keep kept item).length_le
      rw [gather]
      split
      · exact hlength
      · exact hlength.trans (ih _)

theorem withinLimit_append_singleton {pages : List (List (Option κ))} {page : List (Option κ)} :
    WithinLimit limit (pages ++ [page]) ↔ WithinLimit limit pages ∧
      (limit ≤ (distinct pages.flatten).length →
        BeginsIn ((distinct pages.flatten).take limit) page) := by
  constructor
  · intro h
    refine ⟨fun front other back hpages => ?_, fun hfull => h pages page [] rfl hfull⟩
    refine h front other (back ++ [page]) ?_
    rw [hpages, List.append_assoc, List.cons_append]
  · rintro ⟨hpages, hpage⟩ front other back hsplit hfull
    rcases List.eq_nil_or_concat' back with rfl | ⟨middle, last, rfl⟩
    · obtain ⟨rfl, hlast⟩ := List.append_inj' hsplit rfl
      cases hlast
      exact hpage hfull
    · rw [← List.cons_append, ← List.append_assoc] at hsplit
      obtain ⟨rfl, -⟩ := List.append_inj' hsplit rfl
      exact hpages front other middle rfl hfull

theorem distinct_append (items more : List (Option κ)) :
    distinct (items ++ more) = more.foldl keep (distinct items) := List.foldl_append

/-- The pages stay within the limit exactly if no page that comes at the limit adds a key. -/
theorem gatherPages_spec (pages : List (List (Option κ))) :
    ((gatherPages limit pages).length ≤ limit ↔ WithinLimit limit pages) ∧
      (WithinLimit limit pages →
        gatherPages limit pages = (distinct pages.flatten).take limit) := by
  induction pages using List.reverseRecOn with
  | nil =>
      refine ⟨iff_of_true (Nat.zero_le _) ?_, fun _ => (List.take_nil).symm⟩
      intro front page back hsplit
      exact absurd (congrArg List.length hsplit) (by simp)
  | append_singleton pages page ih =>
      obtain ⟨hiff, htake⟩ := ih
      rw [withinLimit_append_singleton, gatherPages, List.foldl_append, List.foldl_cons,
        List.foldl_nil, ← gatherPages, List.flatten_append, List.flatten_singleton, distinct_append]
      by_cases hpages : WithinLimit limit pages
      · rw [htake hpages]
        have hfront := prefix_foldl_keep (distinct pages.flatten) page
        by_cases hfull : limit ≤ (distinct pages.flatten).length
        · have hlength : ((distinct pages.flatten).take limit).length = limit := by
            rw [List.length_take, Nat.min_eq_left hfull]
          have hkept : (page.foldl keep (distinct pages.flatten)).take limit =
              (distinct pages.flatten).take limit :=
            take_eq_of_front ((List.take_prefix _ _).trans hfront) hlength
          obtain ⟨hin, hout⟩ := gather_of_eq hlength page
          by_cases hbegins : BeginsIn ((distinct pages.flatten).take limit) page
          · rw [hin hbegins, hkept]
            exact ⟨iff_of_true hlength.le ⟨hpages, fun _ => hbegins⟩, fun _ => rfl⟩
          · refine ⟨iff_of_false (Nat.not_le.mpr (hout hbegins)) fun h => hbegins (h.2 hfull), ?_⟩
            exact fun h => absurd (h.2 hfull) hbegins
        · have hroom := Nat.not_le.mp hfull
          rw [List.take_of_length_le (Nat.le_of_lt hroom), gather_of_lt hroom]
          refine ⟨iff_of_true ?_ ⟨hpages, fun h => absurd h hfull⟩, fun _ => rfl⟩
          exact (List.length_take_le _ _)
      · have hover := Nat.not_le.mp (mt hiff.mp hpages)
        refine ⟨iff_of_false (Nat.not_le.mpr ?_) fun h => hpages h.1, fun h => absurd h.1 hpages⟩
        exact hover.trans_le (length_le_gather _ page)

theorem gatherPages_of_lt {pages : List (List (Option κ))}
    (h : (distinct pages.flatten).length < limit) :
    gatherPages limit pages = distinct pages.flatten := by
  have hwithin : WithinLimit limit pages := by
    rintro front page back rfl hfull
    have hfront := prefix_foldl_keep (distinct front.flatten) (page :: back).flatten
    rw [← distinct_append, ← List.flatten_append] at hfront
    exact absurd (hfull.trans hfront.length_le) (Nat.not_le.mpr h)
  rw [(gatherPages_spec pages).2 hwithin, List.take_of_length_le h.le]

end Foundation
