import GChat.Archive.Model
import GChat.Catalog.Refresh
import GChat.Foundation.Codec

/-!
# The rooms of an archive

The channels, the private messages and the cached descriptors, as they are serialized. The
operation and the delivery of a message are skipped, so that only stored rooms are read back.
-/

namespace GChat

namespace Unlock

open Foundation
open Archive (ChannelRecord ChannelRole ChannelVisibility MemberRecord Message ScopedPmId
  ScopedPmRecord)

structure Rooms where
  channels : List ChannelRecord
  scopedPms : List ScopedPmRecord
  publicDescriptors : List Catalog.CachedDescriptor

def Rooms.empty : Rooms := ⟨[], [], []⟩

def storedChannel (c : ChannelRecord) : ChannelRecord :=
  { c with messages := c.messages.map Message.stored }

def storedPm (p : ScopedPmRecord) : ScopedPmRecord :=
  { p with messages := p.messages.map Message.stored }

/-- The rooms as a later open reads them back. -/
def Rooms.stored (rooms : Rooms) : Rooms where
  channels := rooms.channels.map storedChannel
  scopedPms := rooms.scopedPms.map storedPm
  publicDescriptors := rooms.publicDescriptors

theorem Rooms.stored_stored (rooms : Rooms) : rooms.stored.stored = rooms.stored := by
  simp [Rooms.stored, storedChannel, storedPm, Message.stored]

/-- What a file can hold. -/
abbrev StoredRooms := { rooms : Rooms // rooms.stored = rooms }

def Rooms.toStored (rooms : Rooms) : StoredRooms := ⟨rooms.stored, rooms.stored_stored⟩

/-! ### The codec -/

abbrev MessageFields := Bytes 16 × ℕ × Option (Bytes 32) × String × Bool × String

def messageFields (m : Message) : MessageFields :=
  (m.id, m.tsUnix, m.senderMemberId, m.senderName, m.mine, m.text)

def messageOf : MessageFields → Message
  | (id, tsUnix, sender, senderName, mine, text) =>
      ⟨id, none, none, tsUnix, sender, senderName, mine, text⟩

def messageCodec : Codec MessageFields :=
  (Codec.fixed 16).pair (Codec.varint.pair ((Codec.fixed 32).option.pair
    (Codec.text.pair (Codec.bool.pair Codec.text))))

def memberCodec : Codec MemberRecord :=
  ((Codec.fixed 32).pair (Codec.text.pair (Codec.varint.pair
      (Codec.varint.option.pair Codec.bool)))).narrow
    (fun (id, displayName, joinOrder, joinedAtUnix, isSelf) =>
      .ok ⟨id, displayName, joinOrder, joinedAtUnix, isSelf⟩)
    (fun m => (m.id, m.displayName, m.joinOrder, m.joinedAtUnix, m.isSelf)) fun _ => rfl

def visibilityCodec : Codec ChannelVisibility :=
  (Codec.below 2).narrow (fun n => .ok (if n = 0 then .pub else .priv))
    (fun | .pub => 0 | .priv => 1) fun visibility => by cases visibility <;> rfl

def roleCodec : Codec ChannelRole :=
  (Codec.below 2).narrow (fun n => .ok (if n = 0 then .owner else .member))
    (fun | .owner => 0 | .member => 1) fun role => by cases role <;> rfl

abbrev ChannelFields := Bytes 32 × String × String × ChannelVisibility × ChannelRole × ℕ ×
  Bool × Option (Bytes 32) × List MemberRecord × List MessageFields

def channelFields (c : ChannelRecord) : ChannelFields :=
  (c.id, c.protocolName, c.title, c.visibility, c.role, c.joinedAtUnix, c.active,
    c.selfMemberId, c.members, c.messages.map messageFields)

def channelOf : ChannelFields → ChannelRecord
  | (id, protocolName, title, visibility, role, joinedAtUnix, active, selfMemberId, members,
      messages) =>
      ⟨id, protocolName, title, visibility, role, joinedAtUnix, active, selfMemberId, members,
        messages.map messageOf⟩

def channelCodec : Codec ChannelFields :=
  (Codec.fixed 32).pair (Codec.text.pair (Codec.text.pair (visibilityCodec.pair (roleCodec.pair
    (Codec.varint.pair (Codec.bool.pair ((Codec.fixed 32).option.pair
      (memberCodec.list.pair messageCodec.list))))))))

abbrev PmFields := (Bytes 32 × Bytes 32 × Bytes 32) × String × List MessageFields × Bool

def pmFields (p : ScopedPmRecord) : PmFields :=
  ((p.id.channelId, p.id.selfMemberId, p.id.remoteMemberId), p.remoteDisplayName,
    p.messages.map messageFields, p.active)

def pmOf : PmFields → ScopedPmRecord
  | ((channelId, selfMemberId, remoteMemberId), remoteDisplayName, messages, active) =>
      ⟨⟨channelId, selfMemberId, remoteMemberId⟩, remoteDisplayName, messages.map messageOf,
        active⟩

def pmCodec : Codec PmFields :=
  ((Codec.fixed 32).pair ((Codec.fixed 32).pair (Codec.fixed 32))).pair
    (Codec.text.pair (messageCodec.list.pair Codec.bool))

theorem channelOf_channelFields : channelOf ∘ channelFields = storedChannel := by
  funext c
  simp only [Function.comp_apply, channelFields, channelOf, storedChannel, List.map_map]
  rfl

theorem pmOf_pmFields : pmOf ∘ pmFields = storedPm := by
  funext p
  simp only [Function.comp_apply, pmFields, pmOf, storedPm, List.map_map]
  rfl

/-- The rooms of an archive. A descriptor is serialized by the protocol library. -/
def roomsCodec (descriptors : Codec Catalog.CachedDescriptor) : Codec StoredRooms :=
  (channelCodec.list.pair (pmCodec.list.pair descriptors.list)).narrow
    (fun (channels, pms, descriptors) =>
      .ok (Rooms.toStored ⟨channels.map channelOf, pms.map pmOf, descriptors⟩))
    (fun rooms => (rooms.1.channels.map channelFields, rooms.1.scopedPms.map pmFields,
      rooms.1.publicDescriptors))
    fun rooms => by
      have hread : (⟨(rooms.1.channels.map channelFields).map channelOf,
          (rooms.1.scopedPms.map pmFields).map pmOf, rooms.1.publicDescriptors⟩ : Rooms) =
            rooms.1 := by
        rw [List.map_map, List.map_map, channelOf_channelFields, pmOf_pmFields]
        exact rooms.2
      refine congrArg Except.ok (Subtype.ext ?_)
      rw [Rooms.toStored, hread]
      exact rooms.2

end Unlock

end GChat
