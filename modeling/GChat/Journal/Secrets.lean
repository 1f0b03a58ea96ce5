import GChat.Journal.Present

/-!
# Bearer secrets in the journal

A disclosure is an output that hands a bearer secret to the caller: an invitation
link, the code of a channel or a reconnect code. What the journal retains of it
should not depend on the secret. It does not exactly for the typed output of a
reusable invitation; the disclosures in plain text are retained as they are.
-/

namespace GChat

namespace Journal

open Foundation Api

/-- The outputs that carry a bearer secret. `hostedLinks` lists links; the secret is one of
them, between the others. -/
inductive Disclosure where
  | reusableInvitation (channel id : String) (expires limit : Option ℕ) (localOnly : Bool)
  | invitation (channel : String) (expires : ℕ) (localOnly : Bool)
  | hostedInvite (channelAlias : String)
  | hostedLinks (channelAlias : String) (before after : List String)
  | hostedCode (channelAlias : String)
  | reconnect
deriving DecidableEq

def joinLine (channelAlias link : String) : String :=
  "/hosted join " ++ link ++ " #" ++ channelAlias ++ " nickname"

/-- The output of a disclosure that carries this secret. -/
def Disclosure.output (secret : String) : Disclosure → CommandOutput
  | .reusableInvitation channel id expires limit localOnly =>
      .reusableInvitation channel secret id expires limit localOnly
  | .invitation channel expires localOnly => .invitation channel secret expires localOnly
  | .hostedInvite channelAlias =>
      .text "Invitation queued" ("Usable after the policy change is accepted. Share privately:\n" ++
        joinLine channelAlias secret)
  | .hostedLinks channelAlias before after =>
      .text "Retained invitation links"
        (joinWith "\n" ((before ++ secret :: after).map (joinLine channelAlias)))
  | .hostedCode channelAlias =>
      .text "Reusable code queued" ("Share privately after acceptance:\n" ++
        joinLine channelAlias secret)
  | .reconnect => .text "Reconnect this channel" secret

def Disclosure.response (disclosure : Disclosure) (conversation : Option String)
    (secret : String) : Response :=
  .output conversation (disclosure.output secret)

/-- The disclosure is the typed output of a reusable invitation. -/
def Disclosure.isReusable : Disclosure → Bool
  | .reusableInvitation _ _ _ _ _ => true
  | _ => false

/-- The response the journal holds once a command has finished and its save succeeded. -/
def retainedIn (id : String) (response : Response) (journal : Cell Operations) :
    Option Response :=
  (finishSubmit id response .saved journal).1.memory[id]?.bind (·.response)

theorem retainedIn_of_get {id : String} {journal : Cell Operations} {record : OperationRecord}
    (hget : journal.memory[id]? = some record) (response : Response) :
    retainedIn id response journal = some (retainedResponse response) := by
  unfold retainedIn finishSubmit
  rw [hget]
  change Option.bind ((journal.memory.insert id _)[id]?) _ = _
  rw [StringMap.get_insert_self]
  rfl

/-- The length of a line tells the length of its link. -/
theorem length_joinLine (channelAlias a b : String) :
    (joinLine channelAlias a).length + b.length = (joinLine channelAlias b).length + a.length := by
  unfold joinLine
  simp only [String.length_append]
  omega

/-- A disclosure is retained without its secret exactly when it is the typed output of a
reusable invitation. -/
theorem retained_secret_iff (disclosure : Disclosure) (conversation : Option String) :
    (∀ a b, retainedResponse (disclosure.response conversation a) =
      retainedResponse (disclosure.response conversation b)) ↔ disclosure.isReusable = true := by
  cases disclosure with
  | reusableInvitation channel id expires limit localOnly => exact iff_of_true (fun _ _ => rfl) rfl
  | invitation channel expires localOnly =>
      refine iff_of_false ?_ (by simp [Disclosure.isReusable])
      intro h
      have hsame := h "" "x"
      simp [Disclosure.response, Disclosure.output, retainedResponse, retainedText,
        retainedRecovery] at hsame
  | hostedInvite channelAlias =>
      refine iff_of_false ?_ (by simp [Disclosure.isReusable])
      intro h
      have hsame := h "" "x"
      simp only [Disclosure.response, Disclosure.output, retainedResponse_text,
        Response.output.injEq, CommandOutput.text.injEq, true_and] at hsame
      have hlength := congrArg String.length hsame
      have hline := length_joinLine channelAlias "" "x"
      simp only [String.length_append] at hlength
      simp only [String.length_empty, show "x".length = 1 from rfl] at hline
      omega
  | hostedLinks channelAlias before after =>
      refine iff_of_false ?_ (by simp [Disclosure.isReusable])
      intro h
      have hsame := h "" "x"
      simp only [Disclosure.response, Disclosure.output, retainedResponse_text,
        Response.output.injEq, CommandOutput.text.injEq, true_and, List.map_append,
        List.map_cons] at hsame
      have hlength := congrArg String.length hsame
      have hjoin := length_joinWith_replace "\n" (joinLine channelAlias "")
        (joinLine channelAlias "x") (before.map (joinLine channelAlias))
        (after.map (joinLine channelAlias))
      have hline := length_joinLine channelAlias "" "x"
      simp only [String.length_empty, show "x".length = 1 from rfl] at hline
      omega
  | hostedCode channelAlias =>
      refine iff_of_false ?_ (by simp [Disclosure.isReusable])
      intro h
      have hsame := h "" "x"
      simp only [Disclosure.response, Disclosure.output, retainedResponse_text,
        Response.output.injEq, CommandOutput.text.injEq, true_and] at hsame
      have hlength := congrArg String.length hsame
      have hline := length_joinLine channelAlias "" "x"
      simp only [String.length_append] at hlength
      simp only [String.length_empty, show "x".length = 1 from rfl] at hline
      omega
  | reconnect =>
      refine iff_of_false ?_ (by simp [Disclosure.isReusable])
      intro h
      have hsame := h "" "x"
      simp only [Disclosure.response, Disclosure.output, retainedResponse_text,
        Response.output.injEq, CommandOutput.text.injEq, true_and] at hsame
      exact absurd hsame (by decide)

/-- What the journal holds of a finished operation does not depend on the secret its output
carries exactly when that is a reusable invitation. Retaining twice is retaining once. -/
theorem journal_secret_iff (id : String) (journal : Cell Operations) (record : OperationRecord)
    (hget : journal.memory[id]? = some record) (disclosure : Disclosure)
    (conversation : Option String) :
    ((∀ a b, retainedIn id (disclosure.response conversation a) journal =
        retainedIn id (disclosure.response conversation b) journal) ∧
      ∀ response, retainedResponse (retainedResponse response) = retainedResponse response) ↔
      disclosure.isReusable = true := by
  rw [← retained_secret_iff disclosure conversation]
  constructor
  · intro h a b
    have hsame := h.1 a b
    rw [retainedIn_of_get hget, retainedIn_of_get hget] at hsame
    exact Option.some.inj hsame
  · intro h
    refine ⟨?_, retainedResponse_idem⟩
    intro a b
    rw [retainedIn_of_get hget, retainedIn_of_get hget, h a b]

/-- The journal of one operation that runs. -/
def runningJournal : Cell Operations :=
  let operations : Operations := (∅ : Operations).insert "0123456789abcdef" (.new "" 1000 none)
  ⟨operations, operations⟩

theorem journal_secret_reconnect :
    ((∀ a b, retainedIn "0123456789abcdef" (Disclosure.reconnect.response none a) runningJournal =
        retainedIn "0123456789abcdef" (Disclosure.reconnect.response none b) runningJournal) ∧
      ∀ response, retainedResponse (retainedResponse response) = retainedResponse response) ↔
      Disclosure.reconnect.isReusable = true :=
  journal_secret_iff "0123456789abcdef" runningJournal (.new "" 1000 none)
    (StringMap.get_insert_self _ _ _) .reconnect none

/-- The reconnect code stays in the journal. -/
theorem reconnect_retained :
    retainedIn "0123456789abcdef" (Disclosure.reconnect.response none "gchat-reconnect1:a")
        runningJournal ≠
      retainedIn "0123456789abcdef" (Disclosure.reconnect.response none "gchat-reconnect1:b")
        runningJournal := by
  rw [retainedIn_of_get (StringMap.get_insert_self _ _ _),
    retainedIn_of_get (StringMap.get_insert_self _ _ _)]
  simp [Disclosure.response, Disclosure.output, retainedResponse_text]

end Journal

end GChat
