import GChat.Api.Response

/-!
# The response that is retained

The journal keeps the response of a finished operation. `retainedResponse` is
what it keeps: outputs that older views cannot read, or that carry a bearer
credential, are replaced by a short text. Retaining twice is retaining once.
-/

namespace GChat

namespace Journal

open Api

/-- The text that stands for a membership recovery preview. -/
def retainedRecovery (response : Response) : Response :=
  match response with
  | .output conversation (.membershipRecovery channel _ epoch pending retainedMessages members) =>
      .output conversation (.text s!"Membership recovery: #{channel}"
        s!"Observed epoch {epoch}; {members.length} members; membership acknowledgements pending: {pending}; {retainedMessages} retained messages. Revocation is not message delivery. Use /recover-membership for a fresh preview.")
  | _ => response

/-- The title and the text that replace an output, where it is not kept. -/
def retainedText : CommandOutput → Option (String × String)
  | .invitationOptions _ =>
      some ("Channel invitations", "Use /invite to choose an invitation policy.")
  | .reusableInvitation _ _ id _ _ _ =>
      some ("Invitation created", s!"Invitation {id}. Use /invites to share or revoke it.")
  | .invitations _ _ =>
      some ("Channel invitations", "Use /invites for current admission counts and controls.")
  | .enrollment id _ phase _ _ =>
      some ("Saved channel join",
        s!"Request {id}; observed state: {phase}. Use /enrollments for current progress.")
  | .enrollments _ =>
      some ("Saved channel joins", "Use /enrollments for current progress and controls.")
  | _ => none

def retainedResponse (response : Response) : Response :=
  match response with
  | .output conversation value =>
      match retainedText value with
      | some (title, text) => .output conversation (.text title text)
      | none => retainedRecovery response
  | _ => response

theorem retainedResponse_text (conversation : Option String) (title text : String) :
    retainedResponse (.output conversation (.text title text)) =
      .output conversation (.text title text) := rfl

/-- A retained response is a text where the response was not kept as it is. -/
theorem retainedResponse_cases (response : Response) :
    retainedResponse response = response ∨
      ∃ conversation title text,
        retainedResponse response = .output conversation (.text title text) := by
  cases response with
  | output conversation value =>
      cases value with
      | invitationOptions => exact Or.inr ⟨_, _, _, rfl⟩
      | invitations => exact Or.inr ⟨_, _, _, rfl⟩
      | reusableInvitation => exact Or.inr ⟨_, _, _, rfl⟩
      | enrollment => exact Or.inr ⟨_, _, _, rfl⟩
      | enrollments => exact Or.inr ⟨_, _, _, rfl⟩
      | membershipRecovery => exact Or.inr ⟨_, _, _, rfl⟩
      | help | directory | invitation | text | status | close => exact Or.inl rfl
  | applied | error | reply => exact Or.inl rfl

theorem retainedResponse_idem (response : Response) :
    retainedResponse (retainedResponse response) = retainedResponse response := by
  obtain h | ⟨conversation, title, text, h⟩ := retainedResponse_cases response
  · rw [h, h]
  · rw [h, retainedResponse_text]

end Journal

end GChat
