import GChat.Contacts.Distinct
import GChat.Contacts.Validate
import GChat.Foundation.Words

/-!
# What an alias stands for

A name is looked up among the keys of the contacts first, and among their aliases then. No two
contacts have one alias, in any case of the letters; but an alias may be the key of another
contact, and then it stands for that one.
-/

namespace GChat

namespace Contacts

open Foundation Api

/-- The key of a contact stands for it, and so does its alias, in any case of the letters. -/
def Book.Unambiguous (book : Book) : Prop :=
  ∀ (id : String) (c : Contact), book.contacts[id]? = some c →
    resolve book id = .ok id ∧
      ∀ name, eqIgnoreAsciiCase name c.name = true → resolve book name = .ok id

/-- No alias is the key of another contact. -/
def Book.KeysApart (book : Book) : Prop :=
  ∀ (id : String) (c : Contact) (other : String), book.contacts[id]? = some c →
    book.contacts.contains other = true → other ≠ id → eqIgnoreAsciiCase c.name other = false

/-- A new alias is the key of no other contact, and a new key is no alias. -/
def Op.Distinguishes (codec : Codec) (book : Book) : Op → Prop
  | .add name _ identity _ =>
      (∀ other, book.contacts.contains other = true → eqIgnoreAsciiCase name other = false) ∧
        ∀ (id : String) (c : Contact), book.contacts[id]? = some c →
          eqIgnoreAsciiCase c.name (key codec identity) = false
  | .rename name newName =>
      ∀ other, book.contacts.contains other = true → resolve book name ≠ .ok other →
        eqIgnoreAsciiCase newName other = false
  | _ => True

/-- No two contacts have one alias. -/
def Book.NamesApart (book : Book) : Prop :=
  ∀ (id id' : String) (c c' : Contact), book.contacts[id]? = some c →
    book.contacts[id']? = some c' → eqIgnoreAsciiCase c.name c'.name = true → id = id'

/-- The alias of the contact under a key. -/
def Book.nameOf (book : Book) (id : String) : Option String := book.contacts[id]?.map (·.name)

section Letters

theorem eqIgnoreAsciiCase_refl (s : String) : eqIgnoreAsciiCase s s = true :=
  eqIgnoreAsciiCase_iff.mpr rfl

theorem eqIgnoreAsciiCase_comm (s t : String) :
    eqIgnoreAsciiCase s t = eqIgnoreAsciiCase t s := by
  rw [Bool.eq_iff_iff, eqIgnoreAsciiCase_iff, eqIgnoreAsciiCase_iff]
  exact eq_comm

theorem eqIgnoreAsciiCase_trans {s t u : String} (h : eqIgnoreAsciiCase s t = true)
    (h' : eqIgnoreAsciiCase t u = true) : eqIgnoreAsciiCase s u = true :=
  eqIgnoreAsciiCase_iff.mpr ((eqIgnoreAsciiCase_iff.mp h).trans (eqIgnoreAsciiCase_iff.mp h'))

end Letters

/-! ### What a name stands for -/

variable {codec : Codec} {book next : Book}

theorem resolve_of_contains {name : String} (h : book.contacts.contains name = true) :
    resolve book name = .ok name := by
  unfold resolve
  rw [if_pos h]

/-- A name that is no key stands for the contact with that alias. -/
theorem resolve_of_name (h : book.NamesApart) {id name : String} {c : Contact}
    (hc : book.contacts[id]? = some c) (hname : eqIgnoreAsciiCase c.name name = true)
    (hkey : book.contacts.contains name = false) : resolve book name = .ok id := by
  have hmem : (id, c) ∈ book.contacts.toList :=
    Std.ExtTreeMap.mem_toList_iff_getElem?_eq_some.mpr hc
  unfold resolve
  rw [hkey, if_neg Bool.false_ne_true, okOr_eq_ok]
  cases hfind : book.contacts.toList.find? fun e => eqIgnoreAsciiCase e.2.name name with
  | none =>
      have hnone := List.find?_eq_none.mp hfind (id, c) hmem
      exact absurd hname hnone
  | some e =>
      have hfound := List.find?_some hfind
      have he := Std.ExtTreeMap.mem_toList_iff_getElem?_eq_some.mp (List.mem_of_find?_eq_some hfind)
      rw [eqIgnoreAsciiCase_comm] at hname
      rw [Option.map_some, h e.1 id e.2 c he hc (eqIgnoreAsciiCase_trans hfound hname)]

/-- Where no two contacts have one alias, each name stands for its contact exactly if no alias is
the key of another. -/
theorem unambiguous_iff (h : book.NamesApart) : book.Unambiguous ↔ book.KeysApart := by
  constructor
  · intro hclear id c other hc hother hne
    rw [← Bool.not_eq_true]
    intro hname
    rw [eqIgnoreAsciiCase_comm] at hname
    have hstands := (hclear id c hc).2 other hname
    rw [resolve_of_contains hother] at hstands
    cases hstands
    exact hne rfl
  · intro hapart id c hc
    refine ⟨resolve_of_contains (StringMap.contains_of_get hc), fun name hname => ?_⟩
    rw [eqIgnoreAsciiCase_comm] at hname
    cases hkey : book.contacts.contains name with
    | false => exact resolve_of_name h hc hname hkey
    | true =>
        rw [resolve_of_contains hkey]
        by_cases hsame : name = id
        · rw [hsame]
        · rw [hapart id c name hc hkey hsame] at hname
          cases hname

/-! ### What the operations do to the aliases -/

/-- The same contacts with the same aliases. -/
def SameNames (book next : Book) : Prop := ∀ id, next.nameOf id = book.nameOf id

namespace SameNames

theorem refl (book : Book) : SameNames book book := fun _ => rfl

theorem trans {last : Book} (h : SameNames book next) (h' : SameNames next last) :
    SameNames book last := fun id => (h' id).trans (h id)

theorem write {id : String} {c d : Contact} (hc : book.contacts[id]? = some c)
    (hname : d.name = c.name) (outbox : StringMap Pending) :
    SameNames book (book.write id d outbox) := by
  intro other
  unfold Book.nameOf Book.write
  rw [StringMap.get_insert]
  split
  next heq =>
    rw [← heq, hc, Option.map_some, Option.map_some, hname]
  next => rfl

theorem setContact {id : String} {c d : Contact} (hc : book.contacts[id]? = some c)
    (hname : d.name = c.name) : SameNames book (book.setContact id d) :=
  write hc hname book.outbox

theorem get (h : SameNames book next) {id : String} {c : Contact}
    (hc : next.contacts[id]? = some c) : ∃ c', book.contacts[id]? = some c' ∧ c'.name = c.name := by
  have hname := h id
  unfold Book.nameOf at hname
  rw [hc, Option.map_some] at hname
  exact Option.map_eq_some_iff.mp hname.symm

theorem contains (h : SameNames book next) (id : String) :
    next.contacts.contains id = book.contacts.contains id := by
  have hname := congrArg Option.isSome (h id)
  unfold Book.nameOf at hname
  rwa [Option.isSome_map, Option.isSome_map, ← StringMap.contains_eq_isSome,
    ← StringMap.contains_eq_isSome] at hname

theorem namesApart (h : SameNames book next) (hbook : book.NamesApart) : next.NamesApart := by
  intro id id' c c' hc hc' hname
  obtain ⟨d, hd, hdname⟩ := h.get hc
  obtain ⟨d', hd', hdname'⟩ := h.get hc'
  exact hbook id id' d d' hd hd' (by rwa [hdname, hdname'])

theorem keysApart (h : SameNames book next) (hbook : book.KeysApart) : next.KeysApart := by
  intro id c other hc hother hne
  obtain ⟨d, hd, hdname⟩ := h.get hc
  rw [h.contains] at hother
  rw [← hdname]
  exact hbook id d other hd hother hne

theorem queuePresence {contact : String} {desired : Option ContactPresence} {now : ℕ}
    (h : queuePresence codec book contact desired now = .ok next) : SameNames book next := by
  obtain ⟨peer, envelope, wire, hash, hpeer, -, -, -, -, -, rfl⟩ := queuePresence_cases h
  refine .write hpeer ?_ _
  rfl

theorem record (contact : String) (peer : Contact) (mid hash : Bytes 32) (content : Content)
    (receivedAt : ℕ) : (peer.record contact mid content hash receivedAt).name = peer.name := by
  unfold Contact.record
  dsimp only
  split <;> rfl

theorem receive {delivery : ApplicationDelivery} {now : ℕ} {flag : Bool}
    (h : receive codec book delivery now = .ok (next, flag)) : SameNames book next := by
  obtain rfl | ⟨peer, hpeer, -, ⟨error, rfl⟩ | ⟨-, envelope, -, -, -, henv⟩⟩ := receive_cases h
  · exact refl _
  · exact setContact hpeer rfl
  · cases envelope with
    | presence generation mode expiresAt =>
        cases henv
        obtain heq | ⟨presence, heq⟩ := receivePresence_cases book _ peer generation mode
          expiresAt now
        · rw [heq]
          exact refl _
        · rw [heq]
          exact setContact hpeer rfl
    | receipt mid hash =>
        cases henv
        obtain heq | ⟨p, -, -, heq⟩ := receiveReceipt_cases book _ peer mid hash
        · rw [heq]
          exact refl _
        · rw [heq]
          refine .write hpeer ?_ _
          rfl
    | message mid content =>
        obtain ⟨error, rfl⟩ | ⟨hash, wire, peer', -, -, -, -, hcase, rfl⟩ :=
          receiveMessage_cases henv
        · exact setContact hpeer rfl
        · apply write hpeer
          obtain ⟨-, rfl⟩ | ⟨-, -, -, rfl⟩ := hcase
          · rfl
          · exact record _ _ _ _ _ _

end SameNames

/-- The operations that give an alias. -/
def Op.naming : Op → Bool
  | .add .. => true
  | .rename .. => true
  | _ => false

theorem sameNames_run {op : Op} (hop : op.naming = false) (h : op.run codec book = .ok next) :
    SameNames book next := by
  cases op with
  | add name card identity own => cases hop
  | rename name newName => cases hop
  | update name card identity own =>
      obtain ⟨c, hc, rfl⟩ := contactUpdate_cases h
      exact .setContact hc rfl
  | verify name given =>
      obtain ⟨id, c, hc, rfl⟩ := contactVerify_cases h
      exact .setContact hc rfl
  | block id blocked =>
      obtain ⟨c, hc, ⟨-, rfl⟩ | ⟨-, rfl⟩⟩ := block_cases h
      · refine .write hc ?_ _
        rfl
      · exact .setContact hc rfl
  | queue contact content operation mid now =>
      obtain ⟨-, rfl⟩ | ⟨peer, wire, hash, -, -, -, hpeer, -, -, -, -, rfl⟩ := queue_cases h
      · exact .refl _
      · refine .write hpeer ?_ _
        rfl
  | away contact args now => exact .queuePresence (away_cases h)
  | back contact now => exact .queuePresence h
  | presenceOff contact now => exact .queuePresence h
  | renew now =>
      exact renewPresence_induction (fun b c contact desired hb hqueue =>
        SameNames.trans hb (.queuePresence hqueue)) (.refl _) h
  | completeSend id pending failure now =>
      obtain rfl | ⟨stored, outbox, -, -, ⟨peer, hpeer, rfl⟩ | rfl⟩ := completeSend_cases h
      · exact .refl _
      · refine .write hpeer ?_ _
        rfl
      · exact fun _ => rfl
  | markRead id messageId =>
      obtain rfl | ⟨c, hc, rfl⟩ := markRead_cases h
      · exact .refl _
      · exact .setContact hc rfl
  | receive delivery now =>
      obtain ⟨⟨b, flag⟩, hreceive, rfl⟩ := map_eq_ok.mp h
      exact .receive hreceive

/-! ### New aliases -/

/-- A contact that is added has an alias of its own, and a key of its own. -/
theorem contactAdd_names {name : String} {card : ContactCard} {identity own : List UInt8}
    (h : contactAdd codec book name card identity own = .ok next) :
    book.contacts.contains (key codec identity) = false ∧
      ∀ (id : String) (c : Contact), book.contacts[id]? = some c →
        eqIgnoreAsciiCase c.name name = false := by
  simp only [contactAdd, bind_eq_ok, refuse_eq_ok, pure_eq_ok] at h
  obtain ⟨_, -, _, -, _, -, _, hnew, -⟩ := h
  obtain ⟨hkey, hname⟩ := Bool.or_eq_false_iff.mp hnew
  exact ⟨hkey, fun id c hc => any_toList_eq_false_iff.mp hname id c hc⟩

theorem contactRename_names {name newName : String}
    (h : contactRename book name newName = .ok next) :
    ∃ id c, resolve book name = .ok id ∧ book.contacts[id]? = some c ∧
      (∀ (id' : String) (c' : Contact), book.contacts[id']? = some c' → id' ≠ id →
        eqIgnoreAsciiCase c'.name newName = false) ∧
      next = book.setContact id { c with name := newName } := by
  simp only [contactRename, bind_eq_ok, okOr_eq_ok, refuse_eq_ok, pure_eq_ok] at h
  obtain ⟨id, hid, _, -, _, hother, c, hc, rfl⟩ := h
  refine ⟨id, c, hid, hc, fun id' c' hc' hne => ?_, rfl⟩
  have hfalse := any_toList_eq_false_iff.mp hother id' c' hc'
  rw [Bool.and_eq_false_iff] at hfalse
  obtain hsame | hname := hfalse
  · exact absurd (bne_eq_false_iff_eq.mp hsame) hne
  · exact hname

/-- The contact under a key gets an alias that no other contact has. -/
theorem Book.NamesApart.setContact (h : book.NamesApart) {id : String} {c : Contact}
    (hname : ∀ (id' : String) (c' : Contact), book.contacts[id']? = some c' → id' ≠ id →
      eqIgnoreAsciiCase c'.name c.name = false) : (book.setContact id c).NamesApart := by
  intro a b d e hd he hsame
  simp only [Book.setContact, StringMap.get_insert] at hd he
  split at hd
  next ha =>
    cases hd
    split at he
    next hb => exact ha.symm.trans hb
    next hb =>
      rw [eqIgnoreAsciiCase_comm, hname b e he (Ne.symm hb)] at hsame
      cases hsame
  next ha =>
    split at he
    next hb =>
      cases he
      rw [hname a d hd (Ne.symm ha)] at hsame
      cases hsame
    next => exact h a b d e hd he hsame

/-- The contact under a key gets an alias that is the key of no other. -/
theorem Book.KeysApart.setContact (h : book.KeysApart) {id : String} {c : Contact}
    (hname : ∀ other, book.contacts.contains other = true → other ≠ id →
      eqIgnoreAsciiCase c.name other = false)
    (hkey : ∀ (id' : String) (c' : Contact), book.contacts[id']? = some c' → id' ≠ id →
      eqIgnoreAsciiCase c'.name id = false) : (book.setContact id c).KeysApart := by
  intro a d other hd hother hne
  simp only [Book.setContact, StringMap.get_insert, Std.ExtTreeMap.contains_insert,
    Bool.or_eq_true, beq_iff_eq, Std.compare_eq_iff_eq] at hd hother
  split at hd
  next ha =>
    cases hd
    obtain hsame | hother := hother
    · exact absurd (hsame.symm.trans ha) hne
    · exact hname other hother (fun heq => hne (heq.trans ha))
  next ha =>
    obtain rfl | hother := hother
    · exact hkey a d hd (Ne.symm ha)
    · exact h a d other hd hother hne

/-! ### Runs -/

theorem namesApart_after (h : book.NamesApart) (op : Op) : (book.after codec op).NamesApart := by
  unfold Book.after
  cases hrun : op.run codec book with
  | error message => exact h
  | ok next =>
      change next.NamesApart
      cases hnaming : op.naming with
      | false => exact (sameNames_run hnaming hrun).namesApart h
      | true =>
          cases op with
          | add name card identity own =>
              obtain ⟨-, hnames⟩ := contactAdd_names hrun
              obtain ⟨-, -, -, -, rfl⟩ := contactAdd_cases hrun
              exact h.setContact fun id' c' hc' _ => hnames id' c' hc'
          | rename name newName =>
              obtain ⟨id, c, -, -, hnames, rfl⟩ := contactRename_names hrun
              exact h.setContact hnames
          | _ => cases hnaming

theorem keysApart_after (h : book.KeysApart) {op : Op} (hop : op.Distinguishes codec book) :
    (book.after codec op).KeysApart := by
  unfold Book.after
  cases hrun : op.run codec book with
  | error message => exact h
  | ok next =>
      change next.KeysApart
      cases hnaming : op.naming with
      | false => exact (sameNames_run hnaming hrun).keysApart h
      | true =>
          cases op with
          | add name card identity own =>
              obtain ⟨-, -, -, -, rfl⟩ := contactAdd_cases hrun
              exact h.setContact (fun other hother _ => hop.1 other hother)
                fun id' c' hc' _ => hop.2 id' c' hc'
          | rename name newName =>
              obtain ⟨id, c, hid, hc, -, rfl⟩ := contactRename_names hrun
              refine h.setContact (fun other hother hne => hop other hother ?_)
                fun id' c' hc' hne => h id' c' id hc' (StringMap.contains_of_get hc) (Ne.symm hne)
              rw [hid]
              exact fun heq => hne (Except.ok.inj heq).symm
          | _ => cases hnaming

theorem namesApart_default : Book.default.NamesApart := by
  intro id id' c c' hc
  simp [Book.default] at hc

theorem keysApart_default : Book.default.KeysApart := by
  intro id c other hc
  simp [Book.default] at hc

/-- In every reachable book the names are unambiguous exactly if no alias is the key of another
contact, and so they are throughout every run that gives no alias of this kind. -/
theorem names_unambiguous (codec : Codec) (ops : List Op) :
    ((ops.foldl (Book.after codec) Book.default).Unambiguous ↔
      (ops.foldl (Book.after codec) Book.default).KeysApart) ∧
    ((∀ (n : ℕ) (op : Op), ops[n]? = some op →
        op.Distinguishes codec ((ops.take n).foldl (Book.after codec) Book.default)) →
      ∀ n, ((ops.take n).foldl (Book.after codec) Book.default).Unambiguous) := by
  have hnames : ∀ ops : List Op, (ops.foldl (Book.after codec) Book.default).NamesApart := by
    intro ops
    have hall : ∀ n, ((ops.take n).foldl (Book.after codec) Book.default).NamesApart :=
      Machine.forall_take namesApart_default fun n op _ h => namesApart_after h op
    have hrun := hall ops.length
    rwa [List.take_length] at hrun
  constructor
  · exact unambiguous_iff (hnames ops)
  · intro hops n
    rw [unambiguous_iff (hnames (ops.take n))]
    exact Machine.forall_take keysApart_default
      (fun m op hop h => keysApart_after h (hops m op hop)) n

/-! ### Two contacts -/

namespace Sample

/-- A contact is added as "bob", and a second one under the given alias. -/
def twoContacts (name : String) : List Op :=
  [.add "bob" [] (identity .b) [], .add name [] (identity .a) []]

end Sample

theorem sample_unambiguous :
    ((Sample.twoContacts "alice").foldl (Book.after Sample.codec) Book.default).Unambiguous := by
  have hops : ∀ (n : ℕ) (op : Op), (Sample.twoContacts "alice")[n]? = some op →
      op.Distinguishes Sample.codec
        (((Sample.twoContacts "alice").take n).foldl (Book.after Sample.codec) Book.default) := by
    intro n op hop
    match n with
    | 0 =>
        cases hop
        constructor
        · intro other hother
          simp [Book.default] at hother
        · intro id c hc
          simp [Book.default] at hc
    | 1 =>
        cases hop
        have hkeys : (((Sample.twoContacts "alice").take 1).foldl (Book.after Sample.codec)
            Book.default).contacts.toList.any (fun e => eqIgnoreAsciiCase "alice" e.1) = false := by
          decide +kernel
        have hnames : (((Sample.twoContacts "alice").take 1).foldl (Book.after Sample.codec)
            Book.default).contacts.toList.any (fun e => eqIgnoreAsciiCase e.2.name
              (key Sample.codec (Sample.identity .a))) = false := by
          decide +kernel
        constructor
        · intro other hother
          obtain ⟨c, hc⟩ := StringMap.get_of_contains hother
          exact any_toList_eq_false_iff.mp hkeys other c hc
        · exact any_toList_eq_false_iff.mp hnames
    | n + 2 => cases hop
  exact (names_unambiguous Sample.codec (Sample.twoContacts "alice")).2 hops 2

/-- The alias of the second contact is the key of the first, and stands for that one. -/
theorem alias_stands_for_another :
    ¬ ∀ ops : List Op, (ops.foldl (Book.after Sample.codec) Book.default).Unambiguous := by
  intro h
  have hclear := h (Sample.twoContacts (sideKey Sample.codec Sample.identity .b))
  have hsecond : (((Sample.twoContacts (sideKey Sample.codec Sample.identity .b)).foldl
      (Book.after Sample.codec) Book.default).contacts[
        sideKey Sample.codec Sample.identity .a]?).map (·.name) =
      some (sideKey Sample.codec Sample.identity .b) := by
    decide +kernel
  have hfirst : ((Sample.twoContacts (sideKey Sample.codec Sample.identity .b)).foldl
      (Book.after Sample.codec) Book.default).contacts.contains
        (sideKey Sample.codec Sample.identity .b) = true := by
    decide +kernel
  obtain ⟨c, hc, hname⟩ := Option.map_eq_some_iff.mp hsecond
  have hstands := (hclear _ c hc).2 c.name (eqIgnoreAsciiCase_refl _)
  rw [hname] at hstands
  rw [resolve_of_contains hfirst] at hstands
  have hkeys : sideKey Sample.codec Sample.identity .b ≠
      sideKey Sample.codec Sample.identity .a := by
    decide +kernel
  exact hkeys (Except.ok.inj hstands)

end Contacts

end GChat
