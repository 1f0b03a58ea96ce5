import GChat.Foundation.Bytes
import GChat.Foundation.Outcome
import GChat.Foundation.StringMap
import Mathlib.Data.List.DropRight

/-!
# The catalogs of public channels

The configured catalogs are read one after the other, each page by page. A catalog that is not
reached ends there, and its error is kept for later. A page that is not in order ends the whole
refresh, whatever the other catalogs said.
-/

namespace GChat

namespace Catalog

open Foundation

def catalogPageSize : ℕ := 100

def catalogMaxPages : ℕ := 10

def catalogMaxDescriptors : ℕ := 10000

def catalogMaxCursorBytes : ℕ := 1024

/-- Seven days, in seconds. -/
def descriptorMaxLifetime : ℕ := 7 * 24 * 60 * 60

structure Url where
  scheme : String
  username : String
  password : Option String
  host : Option String
  port : Option ℕ
  path : String
  query : Option String
  fragment : Option String
  cannotBeABase : Bool
deriving DecidableEq

structure AutomaticJoinEndpoint where
  catalog : String
  endpoint : String
deriving DecidableEq

/-- What the client reads of a descriptor; its signature covers more. -/
structure PublicChannelDescriptor where
  channelId : Bytes 32
  title : String
  description : String
  capacity : ℕ
  expiresAtUnix : ℕ
  ownerPublicKey : List UInt8
  signature : List UInt8
  automaticJoin : AutomaticJoinEndpoint
deriving DecidableEq

structure CachedDescriptor where
  descriptor : PublicChannelDescriptor
  publishedAtUnix : ℕ
deriving DecidableEq

structure CatalogResponse where
  descriptors : List PublicChannelDescriptor
  nextCursor : Option String

structure CatalogHttpResponse where
  status : ℕ
  body : List UInt8

structure CatalogRequest where
  url : Url
  limit : ℕ
  cursor : Option String

/-- The libraries for URLs and JSON, and the check of a signature. -/
structure Library where
  parse : String → Except String Url
  join : Url → String → Except String Url
  display : Url → String
  fromSlice : List UInt8 → Except String CatalogResponse
  verifyAt : PublicChannelDescriptor → ℕ → Bool
  encode : List UInt8 → String

/-- What the network makes of a request for a page. -/
abbrev Answers := ℕ → CatalogRequest → Except String CatalogHttpResponse

/-! ### URLs and descriptors -/

/-- The URL is not a credential-free base URL. -/
def isRefused (httpsOnly : Bool) (url : Url) : Bool :=
  (httpsOnly && url.scheme != "https") ||
    (!httpsOnly && url.scheme != "https" && url.scheme != "http") ||
    url.host.isNone || url.cannotBeABase || url.query.isSome || url.fragment.isSome ||
    !url.username.isEmpty || url.password.isSome

/-- The path with exactly one slash at its end. -/
def Url.normalized (url : Url) : Url :=
  { url with path := String.ofList (url.path.toList.rdropWhile (· == '/')) ++ "/" }

section Refresh

variable (lib : Library) (httpsOnly : Bool) (now : ℕ)

def validateDescriptor (descriptor : PublicChannelDescriptor) : Except String Unit := do
  refuse (!lib.verifyAt descriptor now) "invalid or expired public descriptor"
  refuse (now + descriptorMaxLifetime < descriptor.expiresAtUnix ||
      1000000 < descriptor.capacity || 128 < descriptor.title.utf8ByteSize ||
      1024 < descriptor.description.utf8ByteSize || 4096 < descriptor.ownerPublicKey.length ||
      4096 < descriptor.signature.length)
    "public descriptor bounds exceeded"
  let catalog ← (lib.parse descriptor.automaticJoin.catalog).mapError fun _ =>
    "invalid descriptor catalog URL"
  let endpoint ← (lib.parse descriptor.automaticJoin.endpoint).mapError fun _ =>
    "invalid descriptor join endpoint"
  refuse (isRefused httpsOnly catalog) "unsafe descriptor endpoint"
  let expected ← lib.join catalog.normalized
    s!"v1/channels/{lib.encode descriptor.channelId.toList}/join"
  refuse (endpoint != expected) "descriptor join endpoint does not match channel"

def isValid (descriptor : PublicChannelDescriptor) : Bool :=
  (validateDescriptor lib httpsOnly now descriptor).toOption.isSome

/-! ### Reading the pages -/

/-- Keep the descriptor of a channel that expires last. -/
def keepDescriptor (valid : StringMap CachedDescriptor) (descriptor : PublicChannelDescriptor) :
    StringMap CachedDescriptor :=
  let cached := ⟨descriptor, descriptor.expiresAtUnix - descriptorMaxLifetime⟩
  match valid[hex descriptor.channelId.toList]? with
  | some old =>
      if descriptor.expiresAtUnix ≤ old.descriptor.expiresAtUnix then valid
      else valid.insert (hex descriptor.channelId.toList) cached
  | none => valid.insert (hex descriptor.channelId.toList) cached

def collect (valid : StringMap CachedDescriptor) :
    List PublicChannelDescriptor → StringMap CachedDescriptor
  | [] => valid
  | descriptor :: rest =>
      let valid := if isValid lib httpsOnly now descriptor then keepDescriptor valid descriptor
        else valid
      if catalogMaxDescriptors ≤ valid.size then valid else collect valid rest

/-- What a refresh found so far. -/
structure Found where
  valid : StringMap CachedDescriptor
  successful : Bool
  lastError : Option String

/-- The pages of a catalog from one on; `left` are still allowed. -/
def readPages (answers : Answers) (base : Url) :
    (left index : ℕ) → Option String → List String → Found → Except String Found
  | 0, _, _, _, found => .ok found
  | left + 1, index, cursor, cursors, found => do
      let url ← lib.join base "v1/catalog"
      match answers index ⟨url, catalogPageSize, cursor⟩ with
      | .error error => .ok { found with lastError := some s!"{lib.display base}: {error}" }
      | .ok response =>
          if response.status < 200 ∨ 300 ≤ response.status then
            .ok { found with lastError := some s!"{lib.display base}: HTTP {response.status}" }
          else do
            let page ← (lib.fromSlice response.body).mapError fun error =>
              s!"invalid catalog response: {error}"
            refuse (catalogPageSize < page.descriptors.length) "catalog page exceeds limit"
            let found := { found with
              successful := true
              valid := collect lib httpsOnly now found.valid page.descriptors }
            match page.nextCursor with
            | none => .ok found
            | some next => do
                refuse (next.isEmpty || catalogMaxCursorBytes < next.utf8ByteSize)
                  "catalog pagination cursor is out of bounds"
                refuse (cursors.contains next) "catalog repeated pagination cursor"
                refuse (left == 0) "catalog pagination exceeds page limit"
                readPages answers base left (index + 1) (some next) (next :: cursors) found

/-- The catalogs in their order. A URL that is configured twice is read twice. -/
def readCatalogs (net : ℕ → Answers) : List Url → ℕ → Found → Except String Found
  | [], _, found => .ok found
  | base :: rest, position, found => do
      let found ← readPages lib httpsOnly now (net position) base catalogMaxPages 0 none [] found
      readCatalogs net rest (position + 1) found

/-- Read the catalogs anew. The descriptors of before are kept if none was reached. -/
def refreshCatalogs (net : ℕ → Answers) (urls : List Url) (cached : List CachedDescriptor) :
    List CachedDescriptor × Except String Unit :=
  if urls.isEmpty then (cached, .ok ())
  else
    match readCatalogs lib httpsOnly now net urls 0 ⟨∅, false, none⟩ with
    | .error message => (cached, .error message)
    | .ok found =>
        let descriptors := if found.successful then found.valid.values else cached
        (descriptors.filter fun c => isValid lib httpsOnly now c.descriptor,
          if found.successful then .ok ()
          else .error (found.lastError.getD "no catalog responded"))

def catalogUrl (value : String) : Except String Url := do
  let url ← (lib.parse value).mapError fun error => s!"invalid catalog URL: {error}"
  refuse (isRefused httpsOnly url) "catalog URLs must be credential-free HTTPS base URLs"
  .ok url.normalized

/-- The catalogs of the client. -/
structure Catalogs where
  urls : List Url
  publicDescriptors : List CachedDescriptor

/-- Take the URLs, and refresh the catalogs. -/
def configureCatalogs (net : ℕ → Answers) (catalogs : Catalogs) (values : List String) :
    Catalogs × Except String Unit :=
  match values.mapM (catalogUrl lib httpsOnly) with
  | .error message => (catalogs, .error message)
  | .ok urls =>
      let (descriptors, result) :=
        refreshCatalogs lib httpsOnly now net urls catalogs.publicDescriptors
      (⟨urls, descriptors⟩, result)

end Refresh

/-! ### Catalogs that answer -/

section Order

variable (lib : Library) (answers : Answers) (url : Url)

/-- The page of an answer. There is none where the catalog was not reached. -/
def pageOf : Except String CatalogHttpResponse → Option (Except String CatalogResponse)
  | .error _ => none
  | .ok response =>
      if response.status < 200 ∨ 300 ≤ response.status then none
      else some (lib.fromSlice response.body)

/-- The cursor a page of the catalog is asked with, if it is asked for. -/
def asked : ℕ → Option (Option String)
  | 0 => some none
  | index + 1 =>
      match asked index with
      | none => none
      | some cursor =>
          match pageOf lib (answers index ⟨url, catalogPageSize, cursor⟩) with
          | some (.ok page) => page.nextCursor.map some
          | _ => none

/-- The pages a catalog serves. -/
def pages (index : ℕ) : Option (Except String CatalogResponse) :=
  (asked lib answers url index).bind fun cursor =>
    pageOf lib (answers index ⟨url, catalogPageSize, cursor⟩)

/-- A page that leads nowhere, or to a page that may still be asked for. -/
structure CatalogResponse.InOrder (served : ℕ → Option (Except String CatalogResponse))
    (index : ℕ) (page : CatalogResponse) : Prop where
  size : page.descriptors.length ≤ catalogPageSize
  cursor : ∀ next, page.nextCursor = some next →
    next ≠ "" ∧ next.utf8ByteSize ≤ catalogMaxCursorBytes
  fresh : ∀ next, page.nextCursor = some next → ∀ earlier < index, ∀ other,
    served earlier = some (.ok other) → other.nextCursor ≠ some next
  limit : page.nextCursor ≠ none → index + 1 < catalogMaxPages

/-- Whatever page the catalog serves at this place is in order. -/
def InOrderAt (served : ℕ → Option (Except String CatalogResponse)) (index : ℕ) : Prop :=
  ∀ result, served index = some result → ∃ page, result = .ok page ∧ page.InOrder served index

end Order

section Reading

variable {lib : Library} {httpsOnly : Bool} {now : ℕ} {answers : Answers} {base url : Url}
  {cursor : Option String} {cursors : List String} {found : Found} {left index : ℕ}

/-- The cursors of the pages before. -/
def Seen (served : ℕ → Option (Except String CatalogResponse)) (index : ℕ)
    (cursors : List String) : Prop :=
  ∀ next, next ∈ cursors ↔
    ∃ earlier < index, ∃ page, served earlier = some (.ok page) ∧ page.nextCursor = some next

theorem pages_of_asked (h : asked lib answers url index = some cursor) :
    pages lib answers url index = pageOf lib (answers index ⟨url, catalogPageSize, cursor⟩) := by
  rw [pages, h]
  rfl

theorem asked_succ (h : asked lib answers url index = some cursor) {page : CatalogResponse}
    (hpage : pages lib answers url index = some (.ok page)) :
    asked lib answers url (index + 1) = page.nextCursor.map some := by
  rw [pages_of_asked h] at hpage
  rw [asked, h]
  dsimp only
  rw [hpage]

/-- Where the reading stops, no page follows. -/
theorem asked_none (h : asked lib answers url index = none) {later : ℕ} (hle : index ≤ later) :
    asked lib answers url later = none := by
  induction later, hle using Nat.le_induction with
  | base => exact h
  | succ later _ ih => rw [asked, ih]

theorem inOrderAt_of_stop (h : asked lib answers url (index + 1) = none)
    (hat : InOrderAt (pages lib answers url) index) (later : ℕ) (hle : index ≤ later) :
    InOrderAt (pages lib answers url) later := by
  obtain rfl | hlt := hle.eq_or_lt
  · exact hat
  · intro result hresult
    rw [pages, asked_none h hlt] at hresult
    cases hresult

theorem seen_succ (hseen : Seen (pages lib answers url) index cursors) {page : CatalogResponse}
    {next : String} (hpage : pages lib answers url index = some (.ok page))
    (hnext : page.nextCursor = some next) :
    Seen (pages lib answers url) (index + 1) (next :: cursors) := by
  intro other
  rw [List.mem_cons, hseen other]
  constructor
  · rintro (rfl | ⟨earlier, hlt, found⟩)
    · exact ⟨index, Nat.lt_succ_self _, page, hpage, hnext⟩
    · exact ⟨earlier, Nat.lt_succ_of_lt hlt, found⟩
  · rintro ⟨earlier, hlt, other, hother, hcursor⟩
    obtain rfl | hlt := (Nat.lt_succ_iff.mp hlt).eq_or_lt
    · rw [hpage] at hother
      cases hother
      rw [hnext] at hcursor
      cases hcursor
      exact Or.inl rfl
    · exact Or.inr ⟨earlier, hlt, other, hother, hcursor⟩

/-- What a page that was served adds. -/
def Found.add (lib : Library) (httpsOnly : Bool) (now : ℕ) (found : Found)
    (page : CatalogResponse) : Found :=
  { found with
    successful := true
    valid := collect lib httpsOnly now found.valid page.descriptors }

theorem readPages_unreached (hurl : lib.join base "v1/catalog" = .ok url)
    (hasked : asked lib answers url index = some cursor)
    (hpage : pages lib answers url index = none) :
    ∃ error, readPages lib httpsOnly now answers base (left + 1) index cursor cursors found =
      .ok { found with lastError := some error } := by
  rw [pages_of_asked hasked] at hpage
  rw [readPages, hurl]
  simp only [bind, Except.bind]
  cases hanswer : answers index ⟨url, catalogPageSize, cursor⟩ with
  | error error => exact ⟨_, rfl⟩
  | ok response =>
      rw [hanswer, pageOf] at hpage
      dsimp only
      split at hpage
      next hstatus =>
        rw [if_pos hstatus]
        exact ⟨_, rfl⟩
      · cases hpage

theorem readPages_malformed (hurl : lib.join base "v1/catalog" = .ok url)
    (hasked : asked lib answers url index = some cursor) {message : String}
    (hpage : pages lib answers url index = some (.error message)) :
    readPages lib httpsOnly now answers base (left + 1) index cursor cursors found =
      .error s!"invalid catalog response: {message}" := by
  rw [pages_of_asked hasked] at hpage
  rw [readPages, hurl]
  simp only [bind, Except.bind]
  cases hanswer : answers index ⟨url, catalogPageSize, cursor⟩ with
  | error error =>
      rw [hanswer] at hpage
      cases hpage
  | ok response =>
      rw [hanswer, pageOf] at hpage
      dsimp only
      split at hpage
      · cases hpage
      next hstatus =>
        rw [if_neg hstatus, Option.some.inj hpage]
        rfl

/-- What is done with a page. -/
def turnPage (lib : Library) (httpsOnly : Bool) (now : ℕ) (answers : Answers) (base : Url)
    (left index : ℕ) (cursors : List String) (found : Found) (page : CatalogResponse) :
    Except String Found := do
  refuse (catalogPageSize < page.descriptors.length) "catalog page exceeds limit"
  match page.nextCursor with
  | none => .ok (found.add lib httpsOnly now page)
  | some next => do
      refuse (next.isEmpty || catalogMaxCursorBytes < next.utf8ByteSize)
        "catalog pagination cursor is out of bounds"
      refuse (cursors.contains next) "catalog repeated pagination cursor"
      refuse (left == 0) "catalog pagination exceeds page limit"
      readPages lib httpsOnly now answers base left (index + 1) (some next) (next :: cursors)
        (found.add lib httpsOnly now page)

theorem readPages_page (hurl : lib.join base "v1/catalog" = .ok url)
    (hasked : asked lib answers url index = some cursor) {page : CatalogResponse}
    (hpage : pages lib answers url index = some (.ok page)) :
    readPages lib httpsOnly now answers base (left + 1) index cursor cursors found =
      turnPage lib httpsOnly now answers base left index cursors found page := by
  rw [pages_of_asked hasked] at hpage
  rw [readPages, hurl]
  simp only [bind, Except.bind]
  cases hanswer : answers index ⟨url, catalogPageSize, cursor⟩ with
  | error error =>
      rw [hanswer] at hpage
      cases hpage
  | ok response =>
      rw [hanswer, pageOf] at hpage
      dsimp only
      split at hpage
      · cases hpage
      next hstatus =>
        rw [if_neg hstatus, Option.some.inj hpage]
        rfl

section Turning

variable {page : CatalogResponse} {next : String} {after : Found}

theorem turnPage_end (hnext : page.nextCursor = none) :
    turnPage lib httpsOnly now answers base left index cursors found page = .ok after ↔
      page.descriptors.length ≤ catalogPageSize ∧ found.add lib httpsOnly now page = after := by
  unfold turnPage
  rw [hnext, bind_eq_ok]
  simp only [refuse_eq_ok, decide_eq_false_iff_not, Nat.not_lt, Except.ok.injEq,
    exists_and_left, exists_const]

theorem turnPage_next (hnext : page.nextCursor = some next) :
    turnPage lib httpsOnly now answers base left index cursors found page = .ok after ↔
      page.descriptors.length ≤ catalogPageSize ∧
      (next ≠ "" ∧ next.utf8ByteSize ≤ catalogMaxCursorBytes) ∧ next ∉ cursors ∧ left ≠ 0 ∧
      readPages lib httpsOnly now answers base left (index + 1) (some next) (next :: cursors)
        (found.add lib httpsOnly now page) = .ok after := by
  unfold turnPage
  rw [hnext]
  simp only [bind_eq_ok, refuse_eq_ok, decide_eq_false_iff_not, Nat.not_lt,
    Bool.or_eq_false_iff, String.isEmpty_eq_false_iff, List.contains_eq_mem, beq_eq_false_iff_ne,
    exists_and_left, exists_const]

end Turning

/-! ### Which catalogs are read to their end -/

section Pages

variable {page : CatalogResponse} {next : String}
  {served : ℕ → Option (Except String CatalogResponse)}

theorem inOrderAt_page (hpage : served index = some (.ok page)) :
    InOrderAt served index ↔ page.InOrder served index := by
  constructor
  · intro hat
    obtain ⟨other, hother, horder⟩ := hat _ hpage
    cases hother
    exact horder
  · intro horder result hresult
    rw [hpage] at hresult
    cases hresult
    exact ⟨page, rfl, horder⟩

theorem inOrder_end (hnext : page.nextCursor = none) :
    page.InOrder served index ↔ page.descriptors.length ≤ catalogPageSize := by
  refine ⟨fun horder => horder.size, fun hsize => ⟨hsize, ?_, ?_, fun hne => absurd hnext hne⟩⟩
  · intro next hsome
    rw [hnext] at hsome
    cases hsome
  · intro next hsome
    rw [hnext] at hsome
    cases hsome

theorem inOrder_next (hseen : Seen served index cursors) (hnext : page.nextCursor = some next) :
    page.InOrder served index ↔ page.descriptors.length ≤ catalogPageSize ∧
      (next ≠ "" ∧ next.utf8ByteSize ≤ catalogMaxCursorBytes) ∧ next ∉ cursors ∧
      index + 1 < catalogMaxPages := by
  rw [hseen next]
  constructor
  · intro horder
    refine ⟨horder.size, horder.cursor next hnext, ?_, horder.limit (by rw [hnext]; nofun)⟩
    rintro ⟨earlier, hlt, other, hother, hcursor⟩
    exact horder.fresh next hnext earlier hlt other hother hcursor
  · rintro ⟨hsize, hcursor, hfresh, hlimit⟩
    refine ⟨hsize, ?_, ?_, fun _ => hlimit⟩
    · intro other hother
      rw [hnext] at hother
      cases hother
      exact hcursor
    · intro other hother earlier hlt page hpage hsame
      rw [hnext] at hother
      cases hother
      exact hfresh ⟨earlier, hlt, page, hpage, hsame⟩

end Pages

theorem asked_stop (hasked : asked lib answers url index = some cursor)
    (h : pages lib answers url index = none) : asked lib answers url (index + 1) = none := by
  rw [pages_of_asked hasked] at h
  rw [asked, hasked]
  dsimp only
  rw [h]

theorem forall_from {p : ℕ → Prop} (index : ℕ) :
    (∀ later, index ≤ later → p later) ↔ p index ∧ ∀ later, index + 1 ≤ later → p later := by
  constructor
  · exact fun h => ⟨h index le_rfl, fun later hle => h later (Nat.le_of_succ_le hle)⟩
  · rintro ⟨hindex, h⟩ later hle
    obtain rfl | hlt := hle.eq_or_lt
    · exact hindex
    · exact h later hlt

/-- One page: where it leads to another one, that one decides. -/
theorem readPages_step (hurl : lib.join base "v1/catalog" = .ok url)
    (hasked : asked lib answers url index = some cursor)
    (hseen : Seen (pages lib answers url) index cursors)
    (hleft : index + (left + 1) = catalogMaxPages)
    (hrest : left ≠ 0 → ∀ next cursors found,
      asked lib answers url (index + 1) = some (some next) →
      Seen (pages lib answers url) (index + 1) cursors →
      ((∃ after, readPages lib httpsOnly now answers base left (index + 1) (some next) cursors
          found = .ok after) ↔
        ∀ later, index + 1 ≤ later → InOrderAt (pages lib answers url) later)) :
    (∃ after, readPages lib httpsOnly now answers base (left + 1) index cursor cursors found =
        .ok after) ↔
      ∀ later, index ≤ later → InOrderAt (pages lib answers url) later := by
  cases hpage : pages lib answers url index with
  | none =>
      obtain ⟨error, hread⟩ := readPages_unreached hurl hasked hpage
      have hat : InOrderAt (pages lib answers url) index := by
        intro result hresult
        rw [hpage] at hresult
        cases hresult
      exact iff_of_true ⟨_, hread⟩ (inOrderAt_of_stop (asked_stop hasked hpage) hat)
  | some result =>
      cases result with
      | error message =>
          refine iff_of_false ?_ fun horder => ?_
          · rintro ⟨after, hread⟩
            rw [readPages_malformed hurl hasked hpage] at hread
            cases hread
          · obtain ⟨page, hresult, -⟩ := horder index le_rfl _ hpage
            cases hresult
      | ok page =>
          rw [readPages_page hurl hasked hpage]
          have hnextAsked := asked_succ hasked hpage
          cases hnext : page.nextCursor with
          | none =>
              rw [hnext] at hnextAsked
              simp only [turnPage_end hnext, exists_and_left, exists_eq', and_true]
              rw [← inOrder_end hnext, ← inOrderAt_page hpage]
              exact ⟨inOrderAt_of_stop hnextAsked, fun horder => horder index le_rfl⟩
          | some next =>
              rw [hnext] at hnextAsked
              simp only [turnPage_next hnext, exists_and_left]
              rw [forall_from index, inOrderAt_page hpage, inOrder_next hseen hnext]
              have hlimit : index + 1 < catalogMaxPages ↔ left ≠ 0 := by omega
              simp only [hlimit, and_assoc]
              refine and_congr_right fun _ => and_congr_right fun _ => and_congr_right fun _ =>
                and_congr_right fun _ => and_congr_right fun hne => ?_
              exact hrest hne next _ _ hnextAsked (seen_succ hseen hpage hnext)

/-- A catalog is read to its end exactly if its pages are in order. -/
theorem readPages_ok (hurl : lib.join base "v1/catalog" = .ok url)
    (hasked : asked lib answers url index = some cursor)
    (hseen : Seen (pages lib answers url) index cursors)
    (hleft : index + (left + 1) = catalogMaxPages) :
    (∃ after, readPages lib httpsOnly now answers base (left + 1) index cursor cursors found =
        .ok after) ↔
      ∀ later, index ≤ later → InOrderAt (pages lib answers url) later := by
  induction left generalizing index cursor cursors found with
  | zero => exact readPages_step hurl hasked hseen hleft fun hne => absurd rfl hne
  | succ left ih =>
      refine readPages_step hurl hasked hseen hleft fun _ next cursors found hnext hseen => ?_
      exact ih hnext hseen (by omega)

/-- Once a page was served, the refresh counts as successful. -/
theorem readPages_keeps {after : Found} (h : readPages lib httpsOnly now answers base left index
    cursor cursors found = .ok after) (hfound : found.successful = true) :
    after.successful = true := by
  induction left generalizing index cursor cursors found with
  | zero =>
      cases h
      exact hfound
  | succ left ih =>
      rw [readPages] at h
      obtain ⟨url, hurl, h⟩ := bind_eq_ok.mp h
      split at h
      · cases h
        exact hfound
      · split at h
        · cases h
          exact hfound
        · obtain ⟨page, -, h⟩ := bind_eq_ok.mp h
          obtain ⟨-, -, h⟩ := bind_eq_ok.mp h
          dsimp only at h
          split at h
          · cases h
            rfl
          · obtain ⟨-, -, h⟩ := bind_eq_ok.mp h
            obtain ⟨-, -, h⟩ := bind_eq_ok.mp h
            obtain ⟨-, -, h⟩ := bind_eq_ok.mp h
            exact ih h rfl

/-- Reading a catalog is successful if it serves its first page. -/
theorem readPages_successful (hurl : lib.join base "v1/catalog" = .ok url)
    (hasked : asked lib answers url index = some cursor) {after : Found}
    (h : readPages lib httpsOnly now answers base (left + 1) index cursor cursors found =
      .ok after) :
    after.successful = (found.successful || (pages lib answers url index).isSome) := by
  cases hpage : pages lib answers url index with
  | none =>
      obtain ⟨error, hread⟩ := readPages_unreached hurl hasked hpage
      rw [hread] at h
      cases h
      rw [Option.isSome_none, Bool.or_false]
  | some result =>
      rw [Option.isSome_some, Bool.or_true]
      cases result with
      | error message =>
          rw [readPages_malformed hurl hasked hpage] at h
          cases h
      | ok page =>
          rw [readPages_page hurl hasked hpage] at h
          cases hnext : page.nextCursor with
          | none =>
              obtain ⟨-, rfl⟩ := (turnPage_end hnext).mp h
              rfl
          | some next =>
              obtain ⟨-, -, -, -, hread⟩ := (turnPage_next hnext).mp h
              exact readPages_keeps hread rfl

end Reading

/-! ### Which refreshes succeed -/

section Catalogs

variable (lib : Library)

/-- A catalog that is configured: it has a URL for its pages, and serves none out of order. -/
def Serves (answers : Answers) (base : Url) : Prop :=
  ∃ url, lib.join base "v1/catalog" = .ok url ∧
    ∀ index, InOrderAt (pages lib answers url) index

/-- The catalog was reached: it served its first page. -/
def Reached (answers : Answers) (base : Url) : Prop :=
  ∃ url, lib.join base "v1/catalog" = .ok url ∧ (pages lib answers url 0).isSome = true

/-- No catalog is configured, or all are well configured, none serves a page out of order, and at
least one is reached. -/
def Answered (httpsOnly : Bool) (net : ℕ → Answers) (values : List String) : Prop :=
  values = [] ∨ ∃ urls, values.mapM (catalogUrl lib httpsOnly) = .ok urls ∧
    (∀ position base, urls[position]? = some base → Serves lib (net position) base) ∧
    ∃ position base, urls[position]? = some base ∧ Reached lib (net position) base

variable {lib} {httpsOnly : Bool} {now : ℕ} {net : ℕ → Answers}

theorem seen_zero (served : ℕ → Option (Except String CatalogResponse)) : Seen served 0 [] := by
  intro next
  refine iff_of_false List.not_mem_nil ?_
  rintro ⟨earlier, hlt, -⟩
  exact Nat.not_lt_zero _ hlt

theorem readCatalog_ok {answers : Answers} {base : Url} {found : Found} :
    (∃ after, readPages lib httpsOnly now answers base catalogMaxPages 0 none [] found =
      .ok after) ↔ Serves lib answers base := by
  cases hurl : lib.join base "v1/catalog" with
  | error message =>
      refine iff_of_false ?_ ?_
      · rintro ⟨after, hread⟩
        rw [catalogMaxPages, readPages, hurl] at hread
        cases hread
      · rintro ⟨url, hjoin, -⟩
        rw [hurl] at hjoin
        cases hjoin
  | ok url =>
      refine (readPages_ok hurl rfl (seen_zero _) rfl).trans ?_
      constructor
      · exact fun horder => ⟨url, hurl, fun index => horder index (Nat.zero_le _)⟩
      · rintro ⟨other, hjoin, horder⟩ index -
        rw [hurl] at hjoin
        cases hjoin
        exact horder index

theorem readCatalog_successful {answers : Answers} {base : Url} {found after : Found}
    (h : readPages lib httpsOnly now answers base catalogMaxPages 0 none [] found = .ok after) :
    after.successful = true ↔ found.successful = true ∨ Reached lib answers base := by
  obtain ⟨url, hurl, -⟩ := readCatalog_ok.mp ⟨after, h⟩
  rw [readPages_successful hurl rfl h, Bool.or_eq_true]
  refine or_congr_right ⟨fun hpage => ⟨url, hurl, hpage⟩, ?_⟩
  rintro ⟨other, hjoin, hpage⟩
  rw [hurl] at hjoin
  cases hjoin
  exact hpage

theorem readCatalogs_ok {urls : List Url} {first : ℕ} {found : Found} :
    (∃ after, readCatalogs lib httpsOnly now net urls first found = .ok after) ↔
      ∀ position base, urls[position]? = some base → Serves lib (net (first + position)) base := by
  induction urls generalizing first found with
  | nil => exact iff_of_true ⟨found, rfl⟩ fun position base h => by cases h
  | cons url urls ih =>
      have hstep : (∃ after, readCatalogs lib httpsOnly now net (url :: urls) first found =
          .ok after) ↔ Serves lib (net first) url ∧ ∀ position base,
            urls[position]? = some base → Serves lib (net (first + 1 + position)) base := by
        simp only [readCatalogs, bind_eq_ok]
        constructor
        · rintro ⟨after, middle, hread, hrest⟩
          exact ⟨readCatalog_ok.mp ⟨middle, hread⟩, ih.mp ⟨after, hrest⟩⟩
        · rintro ⟨hserves, hrest⟩
          obtain ⟨middle, hread⟩ := readCatalog_ok.mpr hserves
          obtain ⟨after, hafter⟩ := ih.mpr hrest
          exact ⟨after, middle, hread, hafter⟩
      rw [hstep]
      constructor
      · rintro ⟨hserves, hrest⟩ position base hbase
        cases position with
        | zero =>
            cases hbase
            exact hserves
        | succ position =>
            rw [Nat.add_comm position 1, ← Nat.add_assoc]
            exact hrest position base hbase
      · intro h
        refine ⟨h 0 url rfl, fun position base hbase => ?_⟩
        rw [Nat.add_assoc, Nat.add_comm 1]
        exact h (position + 1) base hbase

theorem readCatalogs_successful {urls : List Url} {first : ℕ} {found after : Found}
    (h : readCatalogs lib httpsOnly now net urls first found = .ok after) :
    after.successful = true ↔ found.successful = true ∨
      ∃ position base, urls[position]? = some base ∧ Reached lib (net (first + position)) base := by
  induction urls generalizing first found with
  | nil =>
      cases h
      refine ⟨Or.inl, ?_⟩
      rintro (hfound | ⟨position, base, hbase, -⟩)
      · exact hfound
      · cases hbase
  | cons url urls ih =>
      obtain ⟨middle, hread, hrest⟩ := bind_eq_ok.mp h
      rw [ih hrest, readCatalog_successful hread, or_assoc]
      refine or_congr_right ⟨?_, ?_⟩
      · rintro (hreached | ⟨position, base, hbase, hreached⟩)
        · exact ⟨0, url, rfl, hreached⟩
        · rw [Nat.add_assoc, Nat.add_comm 1] at hreached
          exact ⟨position + 1, base, hbase, hreached⟩
      · rintro ⟨position, base, hbase, hreached⟩
        cases position with
        | zero =>
            cases hbase
            exact Or.inl hreached
        | succ position =>
            rw [Nat.add_comm position 1, ← Nat.add_assoc] at hreached
            exact Or.inr ⟨position, base, hbase, hreached⟩

theorem refreshCatalogs_ok {urls : List Url} {cached : List CachedDescriptor} :
    (refreshCatalogs lib httpsOnly now net urls cached).2 = .ok () ↔
      urls = [] ∨ ((∀ position base, urls[position]? = some base → Serves lib (net position) base) ∧
        ∃ position base, urls[position]? = some base ∧ Reached lib (net position) base) := by
  have hserves := @readCatalogs_ok lib httpsOnly now net urls 0 ⟨∅, false, none⟩
  have hreached := @readCatalogs_successful lib httpsOnly now net urls 0 ⟨∅, false, none⟩
  simp only [Nat.zero_add] at hserves hreached
  cases hempty : urls with
  | nil => exact iff_of_true rfl (Or.inl rfl)
  | cons url rest =>
      rw [← hempty]
      have hne : urls.isEmpty = false := by rw [hempty]; rfl
      have hnot : urls ≠ [] := by rw [hempty]; nofun
      rw [refreshCatalogs, hne, if_neg Bool.false_ne_true, or_iff_right hnot, ← hserves]
      cases hread : readCatalogs lib httpsOnly now net urls 0 ⟨∅, false, none⟩ with
      | error message =>
          refine iff_of_false nofun ?_
          rintro ⟨⟨after, hafter⟩, -⟩
          cases hafter
      | ok after =>
          have hafter := hreached hread
          rw [or_iff_right Bool.false_ne_true] at hafter
          rw [← hafter]
          dsimp only
          cases hsuccessful : after.successful with
          | false =>
              rw [if_neg Bool.false_ne_true]
              exact iff_of_false nofun fun h => Bool.false_ne_true h.2
          | true =>
              rw [if_pos rfl]
              exact iff_of_true rfl ⟨⟨after, rfl⟩, rfl⟩

theorem mapM_eq_nil {values : List String} (h : values.mapM (catalogUrl lib httpsOnly) = .ok []) :
    values = [] := by
  cases values with
  | nil => rfl
  | cons value rest =>
      rw [List.mapM_cons] at h
      obtain ⟨url, -, h⟩ := bind_eq_ok.mp h
      obtain ⟨urls, -, h⟩ := bind_eq_ok.mp h
      cases h

/-- Catalogs are configured without an error exactly if they answered. -/
theorem configureCatalogs_ok {catalogs : Catalogs} {values : List String} :
    (configureCatalogs lib httpsOnly now net catalogs values).2 = .ok () ↔
      Answered lib httpsOnly net values := by
  unfold configureCatalogs Answered
  cases hurls : values.mapM (catalogUrl lib httpsOnly) with
  | error message =>
      refine iff_of_false nofun ?_
      rintro (rfl | ⟨urls, hother, -⟩)
      · cases hurls
      · cases hother
  | ok urls =>
      refine refreshCatalogs_ok.trans ⟨?_, ?_⟩
      · rintro (rfl | ⟨hserves, hreached⟩)
        · exact Or.inl (mapM_eq_nil hurls)
        · exact Or.inr ⟨urls, rfl, hserves, hreached⟩
      · rintro (rfl | ⟨other, hother, hserves, hreached⟩)
        · cases hurls
          exact Or.inl rfl
        · cases hother
          exact Or.inr ⟨hserves, hreached⟩

end Catalogs

end Catalog

end GChat
