import GChat.Foundation.SideBySide
import GChat.Workspace.Refresh

/-!
# The identifiers of a network

An identifier that was qualified by a network is split again into the network and the local
identifier, if the network has an identifier of its kind and the local one is a text in one
line. The responses of a network are qualified at some of the places where they hold an
identifier: nothing is lost exactly where the other places are empty.
-/

namespace GChat

namespace Workspace

open Foundation Dialect

/-! ### Splitting what was qualified -/

/-- Sixty-four digits, as the identifier of a network. -/
def isNetworkId (network : String) : Bool :=
  network.toList.length == 64 && network.toList.all isLowerHex

/-- A text in one line. -/
def isLocalId (id : String) : Bool :=
  !id.toList.isEmpty && id.toList.all fun c => !isLineTerminator c

/-- The identifier looks as if it were qualified. -/
def isQualified (id : String) : Bool := "network/".toList.isPrefixOf id.toList

theorem toList_networkPrefix (network id : String) :
    (networkPrefix network ++ id).toList =
      "network/".toList ++ (network.toList ++ '/' :: id.toList) := by
  simp [networkPrefix]

theorem isQualified_networkPrefix (network id : String) :
    isQualified (networkPrefix network ++ id) = true := by
  rw [isQualified, toList_networkPrefix, List.isPrefixOf_iff_prefix]
  exact List.prefix_append _ _

theorem drop_networkPrefix (network id : String) :
    (networkPrefix network ++ id).toList.drop 8 = network.toList ++ '/' :: id.toList := by
  rw [toList_networkPrefix]
  rfl

theorem matchNetwork_spec {rest : List Char} {network id : String}
    (h : matchNetwork rest = some (network, id)) :
    rest = network.toList ++ '/' :: id.toList ∧ isNetworkId network = true ∧
      isLocalId id = true := by
  unfold matchNetwork at h
  cases hdrop : rest.drop 64 with
  | nil =>
      rw [hdrop] at h
      cases h
  | cons c tail =>
      rw [hdrop] at h
      by_cases hc : c = '/'
      · subst hc
        simp only at h
        split at h
        next hcond =>
          obtain ⟨hlength, hhex, hne, hline⟩ := hcond
          cases h
          refine ⟨?_, ?_, ?_⟩
          · rw [String.toList_ofList, String.toList_ofList, ← hdrop, List.take_append_drop]
          · simp [isNetworkId, hlength, hhex]
          · simp only [isLocalId, String.toList_ofList, hline, Bool.and_true, Bool.not_eq_true',
              List.isEmpty_eq_false_iff]
            exact hne
        · cases h
      · split at h
        next heq => exact absurd (List.cons.inj heq).1 hc
        · cases h

theorem matchNetwork_append {network id : String} (hnetwork : isNetworkId network = true)
    (hid : isLocalId id = true) :
    matchNetwork (network.toList ++ '/' :: id.toList) = some (network, id) := by
  simp only [isNetworkId, Bool.and_eq_true, beq_iff_eq] at hnetwork
  simp only [isLocalId, Bool.and_eq_true, Bool.not_eq_true', List.isEmpty_eq_false_iff] at hid
  unfold matchNetwork
  rw [← hnetwork.1, List.take_left, List.drop_left]
  simp only [hnetwork.2, hid.2, ne_eq, hid.1, not_false_eq_true, and_self, if_true,
    String.ofList_toList]

theorem splitId_of_unqualified {id : String} (h : isQualified id = false) :
    splitId id = .ok (none, id) := by
  rw [isQualified] at h
  rw [splitId, h]
  rfl

theorem splitId_of_qualified {id : String} (h : isQualified id = true) :
    splitId id = match matchNetwork (id.toList.drop 8) with
      | some (network, localId) => .ok (some network, localId)
      | none => .error (plainError "Invalid network conversation") := by
  rw [isQualified] at h
  rw [splitId, h]
  rfl

/-- What an identifier is split into, put together again. -/
theorem splitId_spec {id localId : String} {network : String}
    (h : splitId id = .ok (some network, localId)) :
    id = networkPrefix network ++ localId ∧ isNetworkId network = true ∧
      isLocalId localId = true := by
  cases hqualified : isQualified id with
  | false =>
      rw [splitId_of_unqualified hqualified] at h
      cases h
  | true =>
      rw [splitId_of_qualified hqualified] at h
      cases hmatch : matchNetwork (id.toList.drop 8) with
      | none =>
          rw [hmatch] at h
          cases h
      | some found =>
          rw [hmatch] at h
          cases h
          obtain ⟨hrest, hnetwork, hlocal⟩ := matchNetwork_spec hmatch
          refine ⟨?_, hnetwork, hlocal⟩
          apply String.toList_injective
          obtain ⟨rest, hid⟩ := List.isPrefixOf_iff_prefix.mp hqualified
          rw [toList_networkPrefix, ← hrest, ← hid]
          rfl

theorem splitId_shorter {id localId : String} {network : String}
    (h : splitId id = .ok (some network, localId)) : localId ≠ id := by
  intro hid
  have hlength := congrArg (fun s => s.toList.length) (splitId_spec h).1
  rw [hid] at hlength
  simp only [toList_networkPrefix, List.length_append, List.length_cons] at hlength
  omega

theorem splitId_network {id : String} {s : Option String × String}
    (hqualified : isQualified id = true) (h : splitId id = .ok s) :
    ∃ network, s.1 = some network := by
  rw [splitId_of_qualified hqualified] at h
  cases hmatch : matchNetwork (id.toList.drop 8) with
  | none =>
      rw [hmatch] at h
      cases h
  | some found =>
      rw [hmatch] at h
      cases h
      exact ⟨_, rfl⟩

/-- Splitting gives the network and the local identifier back, exactly for those of the right
form. -/
theorem splitId_networkPrefix_iff (network id : String) :
    splitId (networkPrefix network ++ id) = .ok (some network, id) ↔
      isNetworkId network = true ∧ isLocalId id = true := by
  constructor
  · intro h
    exact (splitId_spec h).2
  · rintro ⟨hnetwork, hid⟩
    rw [splitId_of_qualified (isQualified_networkPrefix network id), drop_networkPrefix,
      matchNetwork_append hnetwork hid]

/-! ### Where a request goes -/

/-- The request goes to the service of the network, with the local identifier. -/
def Sent.IsFor (w : State) (network localId : String) : Sent → Prop
  | .direct request => w.primary = some network ∧ conversationOf request = some localId
  | .called n request => n = network ∧ conversationOf request = some localId

/-- An identifier leads back to the network and to the local identifier: it is split into them,
and a request for it goes there, whatever is selected and available then. -/
structure State.Returns (w : State) (network localId id : String) : Prop where
  conversation : (splitConversation (some id)).map (·.2) = .ok (some localId)
  bound : w.networkFor (some id) = .ok (some network)
  sent : ∀ (v : State) (request : Request) (sent : Sent), v.networks = w.networks →
    conversationOf request = some id → v.route request = .ok sent → sent.IsFor w network localId

theorem splitConversation_some (id : String) :
    splitConversation (some id) = (splitId id).map fun s => (s.1, some s.2) := rfl

theorem networkFor_some (w : State) (id : String) :
    w.networkFor (some id) = (splitId id).map fun s => s.1.or w.primary := by
  rw [State.networkFor, splitConversation_some]
  cases splitId id with
  | error e => rfl
  | ok s => rfl

theorem conversationOf_localRequest {request inner : Request} {id : String}
    {s : Option String × String} (hid : conversationOf request = some id)
    (hsplit : splitId id = .ok s) (h : localRequest request = .ok inner) :
    conversationOf inner = some s.2 := by
  have hconversation : splitConversation (some id) = .ok (s.1, some s.2) := by
    rw [splitConversation_some, hsplit]
    rfl
  cases request with
  | files file =>
      cases file with
      | list conversation =>
          cases hid
          rw [localRequest, hconversation] at h
          cases h
          rfl
      | publications conversation =>
          cases hid
          rw [localRequest, hconversation] at h
          cases h
          rfl
      | prepare fileId conversation name sizeBytes =>
          cases hid
          rw [localRequest, hsplit] at h
          cases h
          rfl
      | _ => cases hid
  | catalogue conversation =>
      cases hid
      rw [localRequest, hconversation] at h
      cases h
      rfl
  | history conversation before limit =>
      cases hid
      rw [localRequest, hsplit] at h
      cases h
      rfl
  | search conversation text before limit =>
      cases hid
      rw [localRequest, hsplit] at h
      cases h
      rfl
  | submit operationId conversation text =>
      cases hid
      rw [localRequest, hconversation] at h
      cases h
      rfl
  | complete conversation text =>
      cases hid
      rw [localRequest, hconversation] at h
      cases h
      rfl
  | markRead conversation messageId =>
      cases hid
      rw [localRequest, hsplit] at h
      cases h
      rfl
  | _ => cases hid

theorem given_of_ne {text : String} (h : text ≠ "") : given (some text) = some text := by
  simp [given, h]

theorem given_empty : given (some "") = none := by
  simp [given]

/-- A request goes to the network that its conversation names, or to the primary one. -/
theorem route_isFor {v : State} {request : Request} {sent : Sent} {id network : String}
    {s : Option String × String} (hid : conversationOf request = some id) (hne : id ≠ "")
    (hsplit : splitId id = .ok s) (hnetwork : s.1.or v.primary = some network)
    (h : v.route request = .ok sent) : sent.IsFor v network s.2 := by
  have hfor : v.networkFor (some id) = .ok (some network) := by
    rw [networkFor_some, hsplit, ← hnetwork]
    rfl
  have hconversation : splitConversation (some id) = .ok (s.1, some s.2) := by
    rw [splitConversation_some, hsplit]
    rfl
  have hdirect : ∀ inner, localRequest request = .ok inner → conversationOf inner = some s.2 :=
    fun inner hinner => conversationOf_localRequest hid hsplit hinner
  rw [State.route, hid, given_of_ne hne] at h
  simp only [hfor, State.scoped, hid, hconversation, bind, Except.bind] at h
  split at h
  · cases h
  · cases hgiven : given (some network) with
    | none =>
        have hempty : network = "" := by
          by_contra hne'
          rw [given_of_ne hne'] at hgiven
          cases hgiven
        rw [hgiven] at h
        cases hlocal : localRequest request with
        | error e =>
            rw [hlocal] at h
            cases h
        | ok inner =>
            rw [hlocal] at h
            cases h
            refine ⟨?_, hdirect inner hlocal⟩
            cases hs : s.1 with
            | none =>
                rw [hs, Option.none_or] at hnetwork
                exact hnetwork
            | some n =>
                rw [hs, Option.some_or, hempty] at hnetwork
                cases hnetwork
                have hvalid := (splitId_spec (hsplit.trans (by rw [← hs]))).2.1
                exact absurd hvalid (by decide)
    | some n =>
        have hn : n = network := by
          unfold given at hgiven
          exact (Option.some.inj (Option.filter_eq_some_iff.mp hgiven).1).symm
        rw [hgiven] at h
        simp only at h
        split at h
        next hprimary =>
          cases hlocal : localRequest request with
          | error e =>
              rw [hlocal] at h
              cases h
          | ok inner =>
              rw [hlocal] at h
              cases h
              exact ⟨hprimary.symm, hdirect inner hlocal⟩
        next =>
          split at h
          · cases h
          · cases hlocal : localRequest request with
            | error e =>
                rw [hlocal] at h
                cases h
            | ok inner =>
                rw [hlocal] at h
                cases h
                exact ⟨hn, hdirect inner hlocal⟩

/-- An identifier that its network shows itself by a place that is rewritten. -/
def State.Keeps (w : State) (network id : String) : Prop :=
  if w.primary = some network then id ≠ "" ∧ isQualified id = false
  else isNetworkId network = true ∧ isLocalId id = true

theorem State.Returns.of_split {w : State} {network localId id : String}
    {s : Option String × String} (hne : id ≠ "") (hsplit : splitId id = .ok s)
    (hnetwork : s.1.or w.primary = some network) (hlocal : s.2 = localId) :
    w.Returns network localId id := by
  refine ⟨?_, ?_, ?_⟩
  · rw [splitConversation_some, hsplit, ← hlocal]
    rfl
  · rw [networkFor_some, hsplit, ← hnetwork]
    rfl
  · intro v request sent hnetworks hid hroute
    have hprimary : v.primary = w.primary := by rw [State.primary, hnetworks, State.primary]
    have hfor := route_isFor hid hne hsplit (by rw [hprimary, hnetwork]) hroute
    rw [hlocal] at hfor
    cases sent with
    | direct inner => exact ⟨hprimary ▸ hfor.1, hfor.2⟩
    | called n inner => exact hfor

theorem State.Returns.split {w : State} {network localId id : String}
    (h : w.Returns network localId id) :
    ∃ s, splitId id = .ok s ∧ s.1.or w.primary = some network ∧ s.2 = localId := by
  have hconversation := h.conversation
  have hbound := h.bound
  rw [splitConversation_some] at hconversation
  rw [networkFor_some] at hbound
  cases hsplit : splitId id with
  | error e =>
      rw [hsplit] at hbound
      cases hbound
  | ok s =>
      rw [hsplit] at hconversation hbound
      exact ⟨s, rfl, Except.ok.inj hbound, Option.some.inj (Except.ok.inj hconversation)⟩

/-- A request without a conversation is for whatever is selected. -/
theorem not_returns_empty (w : State) (network localId : String) :
    ¬ w.Returns network localId "" := by
  intro h
  obtain ⟨s, hsplit, hnetwork, -⟩ := h.split
  have hs : s = (none, "") := by
    rw [splitId_of_unqualified (by decide)] at hsplit
    exact (Except.ok.inj hsplit).symm
  rw [hs, Option.none_or] at hnetwork
  obtain ⟨other, hother, hne⟩ : ∃ other : String, other ≠ network ∧ other ≠ "" := by
    by_cases ha : network = "a"
    · exact ⟨"b", by rw [ha]; decide, by decide⟩
    · exact ⟨"a", fun h => ha h.symm, by decide⟩
  have hsent := h.sent { w with active := some other, enabled := true } (.markRead "" "")
    (.called other (.markRead "" "")) rfl rfl
  have hprimary : ({ w with active := some other, enabled := true } : State).primary =
      some network := hnetwork
  have hroute : ({ w with active := some other, enabled := true } : State).route
      (.markRead "" "") = .ok (.called other (.markRead "" "")) := by
    rw [State.route, conversationOf, given_empty]
    simp only [State.scoped, conversationOf, splitConversation_some,
      splitId_of_unqualified (show isQualified "" = false by decide), given_of_ne hne, hprimary,
      localRequest, bind, Except.bind, Except.map]
    rw [if_neg (by simp), if_neg (by simpa using hother)]
    rfl
  exact hother (hsent hroute).1

theorem returns_qualify_iff (w : State) (network id : String) :
    w.Returns network id (w.qualify network id) ↔ w.Keeps network id := by
  unfold State.qualify State.Keeps
  by_cases hprimary : w.primary = some network
  · rw [if_pos hprimary, if_pos hprimary]
    constructor
    · intro h
      refine ⟨fun hempty => not_returns_empty w network id (hempty ▸ h), ?_⟩
      obtain ⟨s, hsplit, -, hlocal⟩ := h.split
      rw [← Bool.not_eq_true]
      intro hqualified
      obtain ⟨n, hn⟩ := splitId_network hqualified hsplit
      have hshorter := splitId_shorter (hsplit.trans (by rw [← hn]))
      exact hshorter hlocal
    · rintro ⟨hne, hqualified⟩
      exact .of_split hne (splitId_of_unqualified hqualified) hprimary rfl
  · rw [if_neg hprimary, if_neg hprimary, ← splitId_networkPrefix_iff]
    constructor
    · intro h
      obtain ⟨s, hsplit, hnetwork, hlocal⟩ := h.split
      obtain ⟨n, hn⟩ := splitId_network (isQualified_networkPrefix network id) hsplit
      rw [hn, Option.some_or] at hnetwork
      rw [hsplit, ← hlocal, ← hnetwork, ← hn]
    · intro hsplit
      refine .of_split ?_ hsplit rfl rfl
      intro hempty
      have hqualified := isQualified_networkPrefix network id
      rw [hempty] at hqualified
      exact absurd hqualified (by decide)

/-- An identifier that is not rewritten leads back only to the primary network. -/
theorem returns_self_iff (w : State) (network id : String) :
    w.Returns network id id ↔
      w.primary = some network ∧ id ≠ "" ∧ isQualified id = false := by
  by_cases hprimary : w.primary = some network
  · have h := returns_qualify_iff w network id
    rw [State.qualify, if_pos hprimary, State.Keeps, if_pos hprimary] at h
    rw [h]
    exact ⟨fun h => ⟨hprimary, h⟩, fun h => h.2⟩
  · refine ⟨fun h => ?_, fun h => absurd h.1 hprimary⟩
    obtain ⟨s, hsplit, hnetwork, hlocal⟩ := h.split
    cases hn : s.1 with
    | none =>
        rw [hn, Option.none_or] at hnetwork
        exact absurd hnetwork hprimary
    | some n => exact absurd hlocal (splitId_shorter (hsplit.trans (by rw [← hn])))

/-! ### The places of a response -/

mutual

/-- The places of conversations in the output of a command. -/
def outputIds : CommandOutput → List (Option String)
  | .close conversation => [some conversation]
  | .directory channels => channels.map (·.conversation)
  | .enrollments entries => entriesIds entries
  | _ => []

def entriesIds : List CommandOutput → List (Option String)
  | [] => []
  | output :: entries => outputIds output ++ entriesIds entries

end

def operationIds (r : OperationDetail) : List (Option String) :=
  r.conversation :: (r.output.map outputIds).getD []

/-- The lists of a snapshot that hold conversations. -/
inductive Place where
  | conversations
  | operations
  | activity
  | inputHistory

def idsAt (s : Snapshot) : Place → List (Option String)
  | .conversations => s.conversations.map fun c => some c.id
  | .operations => (s.operations.getD []).flatMap operationIds
  | .activity => (s.activity.getD []).map fun a => some a.conversation
  | .inputHistory => s.inputHistory.map (·.conversation)

mutual

/-- The places of conversations in a response. -/
def responseIds : Response → List (Option String)
  | .networks response => networkResponseIds response
  | .files snapshot => snapshot.files.map fun f => some f.conversation
  | .snapshot snapshot =>
      idsAt snapshot .conversations ++ (idsAt snapshot .operations ++
        (idsAt snapshot .activity ++ idsAt snapshot .inputHistory))
  | .history page => page.messages.map fun m => some m.conversationId
  | .projection conversations _ => conversations.map fun c => some c.id
  | .output conversation output => conversation :: outputIds output
  | .applied conversation _ => [conversation]
  | _ => []

def networkResponseIds : NetworkResponse → List (Option String)
  | .result _ response => responseIds response
  | _ => []

end

/-- The places in the output of a command that are left as they are. -/
def keptOutputIds : CommandOutput → List (Option String)
  | .enrollments entries => entriesIds entries
  | _ => []

/-- The places of a response that are left as they are. -/
def keptIds : Response → List (Option String)
  | .networks response => networkResponseIds response
  | .snapshot snapshot =>
      idsAt snapshot .operations ++ (idsAt snapshot .activity ++ idsAt snapshot .inputHistory)
  | .projection conversations _ => conversations.map fun c => some c.id
  | .output _ output => keptOutputIds output
  | _ => []

/-- What stands at a place leads back to what stood there in the network. -/
def State.ReturnsAt (w : State) (network : String) : Option String → Option String → Prop
  | some localId, some id => w.Returns network localId id
  | none, none => True
  | _, _ => False

section At

variable (w : State) (network : String)

theorem returnsAt_some_iff (id : String) :
    w.ReturnsAt network (some id) (some (w.qualify network id)) ↔
      ∀ a, some id = some a → w.Keeps network a := by
  simp only [State.ReturnsAt, Option.some.injEq, forall_eq']
  exact returns_qualify_iff w network id

theorem not_keeps_empty : ¬ w.Keeps network "" := by
  unfold State.Keeps
  split
  · exact fun h => h.1 rfl
  · exact fun h => absurd h.2 (by decide)

theorem returnsAt_given_iff (id : Option String) :
    w.ReturnsAt network id ((given id).map (w.qualify network)) ↔
      ∀ a, id = some a → w.Keeps network a := by
  cases id with
  | none => simp [given, State.ReturnsAt]
  | some id =>
      by_cases hempty : id = ""
      · subst hempty
        simp only [given_empty, Option.map_none, State.ReturnsAt, Option.some.injEq, forall_eq',
          false_iff]
        exact not_keeps_empty w network
      · rw [given_of_ne hempty]
        exact returnsAt_some_iff w network id

theorem returnsAt_self_iff (id : Option String) :
    w.ReturnsAt network id id ↔
      ∀ a, id = some a → w.primary = some network ∧ w.Keeps network a := by
  cases id with
  | none => simp [State.ReturnsAt]
  | some id =>
      simp only [State.ReturnsAt, Option.some.injEq, forall_eq']
      rw [returns_self_iff]
      unfold State.Keeps
      constructor
      · rintro ⟨hprimary, h⟩
        rw [if_pos hprimary]
        exact ⟨hprimary, h⟩
      · rintro ⟨hprimary, h⟩
        rw [if_pos hprimary] at h
        exact ⟨hprimary, h⟩

end At

/-! ### A response of a network -/

/-- Every conversation in a response leads back to the network that gave the response. -/
def State.AllReturn (w : State) (network : String) (response : Response) : Prop :=
  List.Forall₂ (w.ReturnsAt network) (responseIds response)
    (responseIds (w.mapResponse network response))

/-- The conversations of a response are texts that can be qualified, and those of another network
than the primary one stand where they are rewritten. -/
def State.Covers (w : State) (network : String) (response : Response) : Prop :=
  (∀ id, some id ∈ responseIds response → w.Keeps network id) ∧
    (w.primary = some network ∨ ∀ id ∈ keptIds response, id = none)

section Response

variable (w : State) (network : String)

theorem forall₂_some_iff {α : Type} (l : List α) (f : α → String) :
    List.Forall₂ (w.ReturnsAt network) (l.map fun x => some (f x))
        (l.map fun x => some (w.qualify network (f x))) ↔
      ∀ id, some id ∈ l.map (fun x => some (f x)) → w.Keeps network id := by
  rw [forall₂_map_iff]
  simp only [returnsAt_some_iff, List.mem_map]
  constructor
  · rintro h id ⟨x, hx, hid⟩
    exact h x hx id hid
  · intro h x hx id hid
    exact h id ⟨x, hx, hid⟩

theorem forall₂_given_iff {α : Type} (l : List α) (f : α → Option String) :
    List.Forall₂ (w.ReturnsAt network) (l.map f)
        (l.map fun x => (given (f x)).map (w.qualify network)) ↔
      ∀ id, some id ∈ l.map f → w.Keeps network id := by
  rw [forall₂_map_iff]
  simp only [returnsAt_given_iff, List.mem_map]
  constructor
  · rintro h id ⟨x, hx, hid⟩
    exact h x hx id hid
  · intro h x hx id hid
    exact h id ⟨x, hx, hid⟩

theorem forall₂_self_iff (l : List (Option String)) :
    List.Forall₂ (w.ReturnsAt network) l l ↔
      ∀ id, some id ∈ l → w.primary = some network ∧ w.Keeps network id := by
  rw [List.forall₂_same]
  simp only [returnsAt_self_iff]
  constructor
  · exact fun h id hid => h (some id) hid id rfl
  · rintro h _ hid a rfl
    exact h a hid

theorem kept_iff {l : List (Option String)} (hother : w.primary ≠ some network) :
    (∀ id, some id ∈ l → w.primary = some network ∧ w.Keeps network id) ↔
      ∀ id ∈ l, id = none := by
  constructor
  · intro h id hid
    cases id with
    | none => rfl
    | some id => exact absurd (h id hid).1 hother
  · intro h id hid
    cases h _ hid

theorem output_returns_iff (hother : w.primary ≠ some network) (output : CommandOutput) :
    List.Forall₂ (w.ReturnsAt network) (outputIds output)
        (outputIds (qualifyOutput (w.qualify network) output)) ↔
      (∀ id, some id ∈ outputIds output → w.Keeps network id) ∧
        ∀ id ∈ keptOutputIds output, id = none := by
  cases output with
  | close conversation =>
      have h := forall₂_some_iff w network [conversation] id
      simp only [List.map_cons, List.map_nil, id_eq] at h
      simp only [qualifyOutput, outputIds, keptOutputIds, h, List.not_mem_nil, false_implies,
        implies_true, and_true]
  | directory channels =>
      have h := forall₂_given_iff w network channels (·.conversation)
      simp only [qualifyOutput, outputIds, keptOutputIds, List.map_map, Function.comp_def, h,
        List.not_mem_nil, false_implies, implies_true, and_true]
  | enrollments entries =>
      rw [qualifyOutput, forall₂_self_iff, kept_iff w network hother, outputIds, keptOutputIds]
      refine ⟨fun h => ⟨fun id hid => ?_, h⟩, fun h => h.2⟩
      cases h _ hid
      all_goals nofun
  | _ =>
      simp only [qualifyOutput, outputIds, keptOutputIds, List.forall₂_nil_left_iff,
        List.not_mem_nil, false_implies, implies_true, and_true]

theorem covers_of_kept_nil {response : Response} (h : keptIds response = []) :
    w.Covers network response ↔
      ∀ id, some id ∈ responseIds response → w.Keeps network id := by
  rw [State.Covers, h]
  simp

theorem covers_of_all_kept {response : Response} (hother : w.primary ≠ some network)
    (h : keptIds response = responseIds response) :
    w.Covers network response ↔ ∀ id ∈ responseIds response, id = none := by
  rw [State.Covers, h]
  constructor
  · exact fun h => h.2.resolve_left hother
  · refine fun h => ⟨fun id hid => ?_, Or.inr h⟩
    cases h _ hid

/-- The conversations of a response lead back to its network exactly if the response is
covered. -/
theorem allReturn_iff (response : Response) :
    w.AllReturn network response ↔ w.Covers network response := by
  unfold State.AllReturn State.mapResponse
  by_cases hprimary : w.primary = some network
  · rw [if_pos hprimary, forall₂_self_iff, State.Covers]
    exact ⟨fun h => ⟨fun id hid => (h id hid).2, Or.inl hprimary⟩,
      fun h id hid => ⟨hprimary, h.1 id hid⟩⟩
  · rw [if_neg hprimary]
    cases response with
    | networks response =>
        rw [qualifyResponse, forall₂_self_iff, kept_iff w network hprimary,
          covers_of_all_kept w network hprimary rfl]
        all_goals exact nofun
    | files snapshot =>
        rw [covers_of_kept_nil w network rfl, qualifyResponse, responseIds, responseIds,
          List.map_map]
        exact forall₂_some_iff w network snapshot.files (·.conversation)
    | history page =>
        rw [covers_of_kept_nil w network rfl, qualifyResponse, responseIds, responseIds,
          List.map_map]
        exact forall₂_some_iff w network page.messages (·.conversationId)
    | projection conversations revision =>
        rw [qualifyResponse, forall₂_self_iff, kept_iff w network hprimary,
          covers_of_all_kept w network hprimary rfl]
        all_goals exact nofun
    | applied conversation notice =>
        rw [covers_of_kept_nil w network rfl, qualifyResponse, responseIds, responseIds]
        exact forall₂_given_iff w network [conversation] id
    | output conversation output =>
        rw [qualifyResponse, responseIds, responseIds, List.forall₂_cons, returnsAt_given_iff,
          output_returns_iff w network hprimary, State.Covers, responseIds, keptIds]
        simp only [List.mem_cons, or_imp, forall_and, hprimary, false_or]
        constructor
        · rintro ⟨hconversation, houtput, hkept⟩
          exact ⟨⟨fun id hid => hconversation id hid.symm, houtput⟩, hkept⟩
        · rintro ⟨⟨hconversation, houtput⟩, hkept⟩
          exact ⟨fun id hid => hconversation id hid.symm, houtput, hkept⟩
    | snapshot snapshot =>
        rw [qualifyResponse, responseIds, responseIds, forall₂_append_iff (by simp [idsAt])]
        have hrest : List.Forall₂ (w.ReturnsAt network) (keptIds (.snapshot snapshot))
            (keptIds (.snapshot snapshot)) ↔ ∀ id ∈ keptIds (.snapshot snapshot), id = none := by
          rw [forall₂_self_iff, kept_iff w network hprimary]
        have hconversations := forall₂_some_iff w network snapshot.conversations (·.id)
        have hrewritten : List.Forall₂ (w.ReturnsAt network) (idsAt snapshot .conversations)
            (idsAt { snapshot with
              conversations := snapshot.conversations.map fun c =>
                { c with id := w.qualify network c.id } } .conversations) ↔
            ∀ id, some id ∈ idsAt snapshot .conversations → w.Keeps network id := by
          simp only [idsAt, List.map_map, Function.comp_def]
          exact hconversations
        rw [hrewritten, State.Covers, responseIds]
        refine (and_congr_right fun _ => hrest).trans ?_
        constructor
        · rintro ⟨hconversation, hkept⟩
          refine ⟨fun id hid => ?_, Or.inr hkept⟩
          obtain hid | hid := List.mem_append.mp hid
          · exact hconversation id hid
          · cases hkept _ hid
        · rintro ⟨hall, hkept⟩
          exact ⟨fun id hid => hall id (List.mem_append_left _ hid),
            hkept.resolve_left hprimary⟩
    | _ =>
        rw [covers_of_kept_nil w network rfl]
        exact ⟨fun _ _ h => absurd h List.not_mem_nil, fun _ => List.Forall₂.nil⟩

end Response

/-! ### The snapshot of all networks -/

/-- A snapshot as it comes from its network. -/
def State.qualifySnapshot (w : State) (network : String) (s : Snapshot) : Snapshot :=
  { s with conversations := s.conversations.map fun c => { c with id := w.qualify network c.id } }

/-- The snapshot of the service with those of the networks that answered. -/
def State.aggregated (w : State) (base : Snapshot)
    (children : List (JoinedNetwork × Snapshot)) : Snapshot :=
  children.foldl (fun next c => w.absorb c.1 next (w.qualifySnapshot c.1.id c.2)) (opened base)

/-- Every conversation in the snapshot of all networks leads back to its own network; `primary`
is that of the service itself. -/
def State.AggregateReturns (w : State) (primary : String) (base : Snapshot)
    (children : List (JoinedNetwork × Snapshot)) : Prop :=
  ∀ p, List.Forall₂ (fun x id => w.ReturnsAt x.1 x.2 id)
    ((idsAt base p).map (fun id => (primary, id)) ++
      children.flatMap fun c => (idsAt c.2 p).map fun id => (c.1.id, id))
    (idsAt (w.aggregated base children) p)

/-- The conversations of all snapshots are texts that can be qualified, and no output of an
operation of another network than the primary one holds a conversation. -/
structure State.AggregateCovers (w : State) (primary : String) (base : Snapshot)
    (children : List (JoinedNetwork × Snapshot)) : Prop where
  own : ∀ p id, some id ∈ idsAt base p → w.primary = some primary ∧ w.Keeps primary id
  added : ∀ c ∈ children, ∀ p id, some id ∈ idsAt c.2 p → w.Keeps c.1.id id
  outputs : ∀ c ∈ children, w.primary = some c.1.id ∨
    ∀ r ∈ c.2.operations.getD [], ∀ id ∈ (r.output.map outputIds).getD [], id = none

section Aggregate

variable (w : State)

/-- The places of a snapshot as it is added. -/
def State.addedIds (network : String) (child : Snapshot) : Place → List (Option String)
  | .conversations => child.conversations.map fun c => some (w.qualify network c.id)
  | .operations => (child.operations.getD []).flatMap fun r =>
      (given r.conversation).map (w.qualify network) :: (r.output.map outputIds).getD []
  | .activity => (child.activity.getD []).map fun a => some (w.qualify network a.conversation)
  | .inputHistory => child.inputHistory.map fun h => (given h.conversation).map (w.qualify network)

theorem idsAt_absorb (network : JoinedNetwork) (next child : Snapshot) (p : Place) :
    idsAt (w.absorb network next (w.qualifySnapshot network.id child)) p =
      idsAt next p ++ w.addedIds network.id child p := by
  cases p with
  | conversations => simp [idsAt, State.absorb, State.qualifySnapshot, State.addedIds]
  | operations =>
      simp [idsAt, State.absorb, State.qualifySnapshot, State.addedIds, List.flatMap_map,
        operationIds]
  | activity => simp [idsAt, State.absorb, State.qualifySnapshot, State.addedIds]
  | inputHistory => simp [idsAt, State.absorb, State.qualifySnapshot, State.addedIds]

theorem idsAt_opened (base : Snapshot) (p : Place) : idsAt (opened base) p = idsAt base p := by
  cases p with
  | conversations => rfl
  | operations => rfl
  | activity => rfl
  | inputHistory => rfl

theorem idsAt_aggregated (base : Snapshot) (children : List (JoinedNetwork × Snapshot))
    (p : Place) :
    idsAt (w.aggregated base children) p =
      idsAt base p ++ children.flatMap fun c => w.addedIds c.1.id c.2 p := by
  have hfold : ∀ next, idsAt (children.foldl
      (fun next c => w.absorb c.1 next (w.qualifySnapshot c.1.id c.2)) next) p =
        idsAt next p ++ children.flatMap fun c => w.addedIds c.1.id c.2 p := by
    induction children with
    | nil => simp
    | cons c children ih =>
        intro next
        rw [List.foldl_cons, ih, idsAt_absorb, List.append_assoc, List.flatMap_cons]
  rw [State.aggregated, hfold, idsAt_opened]

theorem length_addedIds (network : String) (child : Snapshot) (p : Place) :
    (w.addedIds network child p).length = (idsAt child p).length := by
  cases p with
  | conversations => simp [State.addedIds, idsAt]
  | operations => simp [State.addedIds, idsAt, operationIds, List.length_flatMap]
  | activity => simp [State.addedIds, idsAt]
  | inputHistory => simp [State.addedIds, idsAt]

theorem added_returns_iff (network : String) (child : Snapshot) :
    (∀ p, List.Forall₂ (w.ReturnsAt network) (idsAt child p) (w.addedIds network child p)) ↔
      (∀ p id, some id ∈ idsAt child p → w.Keeps network id) ∧
        (w.primary = some network ∨
          ∀ r ∈ child.operations.getD [], ∀ id ∈ (r.output.map outputIds).getD [], id = none) := by
  have hconversations := forall₂_some_iff w network child.conversations (·.id)
  have hactivity := forall₂_some_iff w network (child.activity.getD []) (·.conversation)
  have hhistory := forall₂_given_iff w network child.inputHistory (·.conversation)
  have hoperations : List.Forall₂ (w.ReturnsAt network) (idsAt child .operations)
      (w.addedIds network child .operations) ↔
        (∀ id, some id ∈ idsAt child .operations → w.Keeps network id) ∧
        (w.primary = some network ∨
          ∀ r ∈ child.operations.getD [], ∀ id ∈ (r.output.map outputIds).getD [], id = none) := by
    rw [idsAt, State.addedIds, forall₂_flatMap_iff _ _ _ fun r _ => by simp [operationIds]]
    simp only [operationIds, List.forall₂_cons, returnsAt_given_iff, forall₂_self_iff]
    constructor
    · intro h
      constructor
      · intro id hid
        obtain ⟨r, hr, hid⟩ := List.mem_flatMap.mp hid
        obtain hid | hid := List.mem_cons.mp hid
        · exact (h r hr).1 id hid.symm
        · exact ((h r hr).2 id hid).2
      · by_cases hprimary : w.primary = some network
        · exact Or.inl hprimary
        · exact Or.inr fun r hr => (kept_iff w network hprimary).mp (h r hr).2
    · rintro ⟨hkeeps, houtputs⟩ r hr
      constructor
      · intro id hid
        exact hkeeps id (List.mem_flatMap.mpr ⟨r, hr, List.mem_cons.mpr (Or.inl hid.symm)⟩)
      · intro id hid
        refine ⟨?_, hkeeps id (List.mem_flatMap.mpr ⟨r, hr, List.mem_cons_of_mem _ hid⟩)⟩
        obtain hprimary | hnone := houtputs
        · exact hprimary
        · cases hnone r hr _ hid
  constructor
  · intro h
    refine ⟨fun p => ?_, (hoperations.mp (h .operations)).2⟩
    cases p with
    | conversations => exact hconversations.mp (h .conversations)
    | operations => exact (hoperations.mp (h .operations)).1
    | activity => exact hactivity.mp (h .activity)
    | inputHistory => exact hhistory.mp (h .inputHistory)
  · rintro ⟨hkeeps, houtputs⟩ p
    cases p with
    | conversations => exact hconversations.mpr (hkeeps .conversations)
    | operations => exact hoperations.mpr ⟨hkeeps .operations, houtputs⟩
    | activity => exact hactivity.mpr (hkeeps .activity)
    | inputHistory => exact hhistory.mpr (hkeeps .inputHistory)

theorem aggregateReturns_iff (primary : String) (base : Snapshot)
    (children : List (JoinedNetwork × Snapshot)) :
    w.AggregateReturns primary base children ↔ w.AggregateCovers primary base children := by
  have hparts : ∀ p, List.Forall₂ (fun x id => w.ReturnsAt x.1 x.2 id)
      ((idsAt base p).map (fun id => (primary, id)) ++
        children.flatMap fun c => (idsAt c.2 p).map fun id => (c.1.id, id))
      (idsAt (w.aggregated base children) p) ↔
        List.Forall₂ (w.ReturnsAt primary) (idsAt base p) (idsAt base p) ∧
          ∀ c ∈ children, List.Forall₂ (w.ReturnsAt c.1.id) (idsAt c.2 p)
            (w.addedIds c.1.id c.2 p) := by
    intro p
    rw [idsAt_aggregated, forall₂_append_iff (by rw [List.length_map]),
      forall₂_flatMap_iff _ _ _ fun c _ => by rw [List.length_map, length_addedIds]]
    simp only [List.forall₂_map_left_iff]
  unfold State.AggregateReturns
  simp only [hparts, forall₂_self_iff]
  constructor
  · intro h
    have hchildren := fun c hc => (added_returns_iff w c.1.id c.2).mp fun p => (h p).2 c hc
    exact ⟨fun p => (h p).1, fun c hc => (hchildren c hc).1, fun c hc => (hchildren c hc).2⟩
  · intro h p
    exact ⟨h.own p, fun c hc =>
      (added_returns_iff w c.1.id c.2).mpr ⟨h.added c hc, h.outputs c hc⟩ p⟩

end Aggregate

/-! ### The refresh gathers it -/

theorem setPresence_networks (w : State) (revision : ℕ) (network : String)
    (snapshot : Snapshot) :
    (w.setPresence revision network snapshot).networks = w.networks := by
  unfold State.setPresence
  split
  · rfl
  · rfl

theorem setPresence_enabled (w : State) (revision : ℕ) (network : String)
    (snapshot : Snapshot) :
    (w.setPresence revision network snapshot).enabled = w.enabled := by
  unfold State.setPresence
  split
  · rfl
  · rfl

theorem qualify_congr {v w : State} (h : v.networks = w.networks) : v.qualify = w.qualify := by
  have hprimary : v.primary = w.primary := by rw [State.primary, h, State.primary]
  funext network id
  rw [State.qualify, State.qualify, hprimary]

theorem mapResponse_snapshot (w : State) {network : String} (hother : w.primary ≠ some network)
    (s : Snapshot) :
    w.mapResponse network (.snapshot s) = .snapshot (w.qualifySnapshot network s) := by
  rw [State.mapResponse, if_neg hother]
  rfl

/-- One answer of a network in turn. -/
def answerChild (t : Task) (state : State × Stage) (child : JoinedNetwork × Snapshot) :
    State × Stage :=
  state.1.answered { t with stage := state.2 }
    (.ok (.networks (.result child.1.id (.snapshot child.2))))

/-- A refresh in which every network answers gives the snapshot of all networks. -/
theorem refresh_aggregates {t : Task} (children : List (JoinedNetwork × Snapshot)) {w : State}
    (hlifecycle : t.lifecycle = w.lifecycle) (henabled : w.enabled = true)
    (hother : ∀ c ∈ children, c.1.id ≠ "" ∧ w.primary ≠ some c.1.id) (next : Snapshot) :
    ((children.foldl (answerChild t) (w, w.askNext next (children.map Prod.fst))).2 =
      .returning (children.foldl
        (fun next c => w.absorb c.1 next (w.qualifySnapshot c.1.id c.2)) next)) := by
  induction children generalizing w next with
  | nil => rfl
  | cons c children ih =>
      obtain ⟨⟨hne, hprimary⟩, hrest⟩ := List.forall_mem_cons.mp hother
      have hscoped : w.scoped (some c.1.id) .snapshot = .ok (.called c.1.id .snapshot) := by
        simp [State.scoped, conversationOf, splitConversation, given_of_ne hne, hprimary.symm,
          henabled, localRequest, bind, Except.bind]
      have hask : w.askNext next ((c :: children).map Prod.fst) =
          .child next c.1 (.called c.1.id .snapshot) (children.map Prod.fst) := by
        rw [List.map_cons, State.askNext, hscoped]
      have hreceived : w.received (.called c.1.id .snapshot)
          (.networks (.result c.1.id (.snapshot c.2))) =
            .ok (.snapshot (w.qualifySnapshot c.1.id c.2)) := by
        simp [State.received, mapResponse_snapshot w hprimary]
      have hstep : answerChild t (w, w.askNext next ((c :: children).map Prod.fst)) c =
          (w.arrived t.presenceRevision c.1 (w.qualifySnapshot c.1.id c.2),
            (w.arrived t.presenceRevision c.1 (w.qualifySnapshot c.1.id c.2)).askNext
              (w.absorb c.1 next (w.qualifySnapshot c.1.id c.2)) (children.map Prod.fst)) := by
        rw [answerChild, hask]
        simp only [State.answered, State.childAnswered, Except.bind, hreceived]
        rw [if_neg (not_not.mpr hlifecycle)]
        have hqualify : (w.arrived t.presenceRevision c.1
            (w.qualifySnapshot c.1.id c.2)).qualify = w.qualify :=
          qualify_congr (setPresence_networks _ _ _ _)
        simp only [State.absorb, hqualify]
      generalize hv : w.arrived t.presenceRevision c.1 (w.qualifySnapshot c.1.id c.2) = v at hstep
      have hnetworks : v.networks = w.networks := hv ▸ setPresence_networks _ _ _ _
      have hlifecycle' : t.lifecycle = v.lifecycle :=
        hlifecycle.trans (hv ▸ (arrived_lifecycle w _ _ _).symm)
      have henabled' : v.enabled = true := hv ▸ (setPresence_enabled _ _ _ _).trans henabled
      have hprimary' : v.primary = w.primary := by rw [State.primary, hnetworks, State.primary]
      have habsorb : (fun (next : Snapshot) (c : JoinedNetwork × Snapshot) =>
          v.absorb c.1 next (v.qualifySnapshot c.1.id c.2)) =
            fun next c => w.absorb c.1 next (w.qualifySnapshot c.1.id c.2) := by
        funext next c
        simp only [State.absorb, State.qualifySnapshot, qualify_congr hnetworks]
      rw [List.foldl_cons, hstep, ih hlifecycle' henabled' (hprimary' ▸ hrest), habsorb,
        List.foldl_cons]

/-! ### What leads back -/

/-- Splitting undoes qualifying for a network and a local identifier of the right form; the
conversations of a response, and those in the snapshot of all networks, lead back to where they
come from exactly if they stand at covered places. -/
theorem ids_return_iff (w : State) :
    (∀ network id, splitId (networkPrefix network ++ id) = .ok (some network, id) ↔
      isNetworkId network = true ∧ isLocalId id = true) ∧
    (∀ network response, w.AllReturn network response ↔ w.Covers network response) ∧
    ∀ primary base children,
      w.AggregateReturns primary base children ↔ w.AggregateCovers primary base children :=
  ⟨splitId_networkPrefix_iff, allReturn_iff w, aggregateReturns_iff w⟩

namespace Sample

def networkId (c : Char) : String := String.ofList (List.replicate 64 c)

/-- A channel of the second network is left, and the result stands in its journal. -/
def closing : OperationDetail :=
  ⟨none, "operation", "instance", none, "/leave", 0, "completed",
    some (.close "channel/same"), none⟩

def second : Snapshot := { profile with conversations := [], operations := some [closing] }

def twoNetworks : State :=
  { State.created with networks := [joined (networkId 'a') true, joined (networkId 'b') false] }

end Sample

open Sample in
/-- The channel that was left in the second network leads to the primary network. -/
theorem closed_channel_misled :
    ¬ twoNetworks.AggregateReturns (networkId 'a') profile
      [(joined (networkId 'b') false, second)] := by
  rw [aggregateReturns_iff]
  intro h
  obtain hprimary | hnone := h.outputs _ (List.mem_singleton_self _)
  · exact absurd hprimary (by decide +kernel)
  · have hid := hnone closing (List.mem_singleton_self _) (some "channel/same")
      (by rw [closing, Option.map_some, Option.getD_some, outputIds]; exact List.mem_singleton_self _)
    cases hid

end Workspace

end GChat
