import GChat.Archive.Event

/-!
# Reconciling the archive with the protocol rosters

`reconcileChannels` brings the channel records in line with the channels the
SDK lists: records of channels no longer listed become inactive, and each listed
channel is merged with its roster. The data lock is released while a roster is
fetched, so a call is a sequence of sections, `dropLost` and then one
`mergeChannel` for each listed channel, and other operations may run between
two of them. `rosterChanged` is the section run for one channel when its roster
changes.
-/

namespace GChat

namespace Archive

open Foundation

/-- A channel as the SDK lists it. -/
structure JoinedChannel where
  id : ChannelId
  channel : String
  visibility : ChannelVisibility
  role : ChannelRole
deriving DecidableEq

structure RosterMember where
  memberId : MemberId
  displayName : String
  joinOrder : ℕ
  joinedAtUnix : Option ℕ
  isSelf : Bool
deriving DecidableEq

def RosterMember.record (m : RosterMember) : MemberRecord where
  id := m.memberId
  displayName := m.displayName
  joinOrder := m.joinOrder
  joinedAtUnix := m.joinedAtUnix
  isSelf := m.isSelf

/-- The own membership a roster declares. -/
def rosterSelf (roster : List RosterMember) : Option MemberId :=
  (roster.find? fun m => m.isSelf).map (·.memberId)

/-- Deactivate the records of channels that are no longer listed, and the
private conversations of these channels. -/
def dropLost (data : ArchiveData) (activeIds : List ChannelId) : ArchiveData :=
  let lost := (data.channels.filter fun c => c.active && !activeIds.contains c.id).map (·.id)
  { data with
    channels := data.channels.map fun c =>
      if c.active && !activeIds.contains c.id then c.deactivate else c
    scopedPms := data.scopedPms.map fun p =>
      if lost.contains p.id.channelId then p.deactivate else p }

/-- The record a listed channel is merged into. -/
def isCurrent (joined : JoinedChannel) (selfId : Option MemberId) (c : ChannelRecord) : Bool :=
  c.active && c.id == joined.id && c.selfMemberId == selfId

/-- What a merge takes over from the listed channel and its roster. -/
def ChannelRecord.merge (joined : JoinedChannel) (members : List MemberRecord)
    (c : ChannelRecord) : ChannelRecord :=
  { c with
    protocolName := joined.channel
    visibility := joined.visibility
    role := joined.role
    members := members }

def ChannelRecord.withMembers (members : List MemberRecord) (c : ChannelRecord) :
    ChannelRecord := { c with members := members }

def ChannelRecord.create (joined : JoinedChannel) (selfId : Option MemberId)
    (members : List MemberRecord) (now : ℕ) : ChannelRecord where
  id := joined.id
  protocolName := joined.channel
  title := joined.channel
  visibility := joined.visibility
  role := joined.role
  joinedAtUnix := now
  active := true
  selfMemberId := selfId
  members := members
  messages := []

def mergeChannel (data : ArchiveData) (joined : JoinedChannel) (roster : List RosterMember)
    (now : ℕ) : ArchiveData :=
  let selfId := rosterSelf roster
  let members := roster.map RosterMember.record
  if data.channels.any (isCurrent joined selfId) then
    { data with
      channels := data.channels |>
        modifyFirst (isCurrent joined selfId) (ChannelRecord.merge joined members) }
  else
    { data with
      channels := data.channels ++ [ChannelRecord.create joined selfId members now] }

/-- A call that nothing interrupts, with the roster of each listed channel. -/
def reconcileChannels (data : ArchiveData)
    (joined : List (JoinedChannel × List RosterMember)) (now : ℕ) : ArchiveData :=
  joined.foldl (fun data j => mergeChannel data j.1 j.2 now)
    (dropLost data (joined.map fun j => j.1.id))

/-- Replace the members of the active record of a channel, and deactivate the
private conversations with members no longer present. -/
def rosterChanged (data : ArchiveData) (channel : String) (roster : List RosterMember) :
    ArchiveData :=
  match data.channels.find? (namesActive channel) with
  | none => data
  | some record =>
      let present := roster.map (·.memberId)
      { data with
        channels := data.channels |>
          modifyFirst (namesActive channel)
            (ChannelRecord.withMembers (roster.map RosterMember.record))
        scopedPms := data.scopedPms.map fun p =>
          if p.id.channelId == record.id && !present.contains p.id.remoteMemberId then
            p.deactivate
          else p }

end Archive

end GChat
