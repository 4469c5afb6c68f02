/-
# Removal is permanent

A device that a replica removed itself stays removed, whatever comes in
(`mem_removedDevices_step`).  One that it learnt of stays removed only while nobody takes the
entry out of the document again, and it is forgotten with the document; a name under another
spelling of its id makes it a member for the engine.  Without such updates, where the space is
not set up again after a removal was forgotten, and where nobody is served or dialled who was
struck off since the last look at the roster, a removal is for ever (`removal_permanent`).
-/

import ZuTalk.Members.Space

namespace ZuTalk
namespace Members

open Machine

variable {onCurve : List UInt8 → Bool}

namespace Space

theorem isRemoved_iff {space : Space onCurve} {device : String} :
    space.isRemoved device = true ↔
      (space.doc.getString .removed device).isSome = true ∨ device ∈ space.removedDevices := by
  unfold isRemoved roster readRoster
  by_cases hmem : device ∈ space.removedDevices <;> simp [hmem]

end Space

/-! ### What keeps a removal -/

/-- What an update, and what the engine does, may not do for removals to be permanent: nobody is
named, and nothing comes in, after a removal was forgotten with the document; no name comes in
under another spelling of an id; nothing but a text comes in for the entry of a removed device
unless it is outdated or the device is in the table of this replica; and nobody is served or
dialled who was struck off since the check. -/
def Allowed (space : Space onCurve) : Event onCurve → Prop
  | .imported update =>
      space.lost = false ∧
      (∀ write ∈ update, write.map = .devices → write.isText = true →
        Canonical onCurve write.key) ∧
      ∀ write ∈ update, write.map = .removed → space.isRemoved write.key = true →
        write.isText = true ∨ write.key ∈ space.removedDevices ∨
          (space.doc.imported update).Outdated write
  | .admitted .. | .renamed _ => space.lost = false
  | .served device => ∀ contact ∈ space.links, contact.device = device → contact.struck = false
  | .dialed device _ =>
      ∀ contact ∈ space.dialing, contact.device = device → contact.struck = false
  | _ => True

instance (space : Space onCurve) (event : Event onCurve) : Decidable (Allowed space event) := by
  cases event <;> unfold Allowed <;> infer_instance

/-- The names of a document are under ids as this program spells them. -/
def Spelled (onCurve : List UInt8 → Bool) (doc : RosterDoc) : Prop :=
  ∀ write ∈ doc, write.map = .devices → write.isText = true → Canonical onCurve write.key

/-- What is kept: names are under canonical ids, and who was not struck off since the check is
a member. -/
structure Space.Sound (space : Space onCurve) : Prop where
  spelled : Spelled onCurve space.doc
  links : ∀ contact ∈ space.links, contact.struck = false →
    space.isMember contact.device = true
  joining : ∀ contact ∈ space.joining, contact.struck = false →
    space.isMember contact.device = true
  dialing : ∀ contact ∈ space.dialing, contact.struck = false →
    space.isMember contact.device = true

namespace Space

variable {space space' : Space onCurve} {event : Event onCurve}

@[simp] theorem isRemoved_changed (doc : RosterDoc) (removedDevices : List String)
    (device : String) : (space.changed doc removedDevices).isRemoved device =
      isRemoved { space with doc := doc, removedDevices := removedDevices } device := rfl

/-- Who is still named after a change was not struck off by it. -/
theorem Sound.changed (h : Sound space) {doc : RosterDoc} (hspelled : Spelled onCurve doc)
    (removedDevices : List String) : Sound (space.changed doc removedDevices) := by
  -- a contact that is not struck off now was a member before, and is one now
  have hnote : ∀ contacts : List (Contact onCurve),
      (∀ contact ∈ contacts, contact.struck = false → space.isMember contact.device = true) →
      ∀ contact ∈ contacts.map (fun contact : Contact onCurve =>
        { contact with
          struck := contact.struck || (space.isMember contact.device &&
            !isMember { space with doc := doc, removedDevices := removedDevices }
              contact.device) }),
        contact.struck = false →
          (space.changed doc removedDevices).isMember contact.device = true := by
    intro contacts hcontacts contact hcontact hstruck
    obtain ⟨before, hbefore, rfl⟩ := List.mem_map.1 hcontact
    dsimp only at hstruck ⊢
    obtain ⟨hnot, hnow⟩ := Bool.or_eq_false_iff.1 hstruck
    have hmember := hcontacts before hbefore hnot
    rw [hmember, Bool.true_and, Bool.not_eq_false'] at hnow
    exact hnow
  constructor
  · exact hspelled
  · exact hnote space.links h.links
  · exact hnote space.joining h.joining
  · exact hnote space.dialing h.dialing

end Space

/-! ### The writes of this replica -/

section Writes

variable {doc : RosterDoc} {peer : UInt64} {device : String}

theorem Spelled.insert (h : Spelled onCurve doc) {map : RosterMap} {key : String}
    (hkey : map = .devices → Canonical onCurve key) (value : String) :
    Spelled onCurve (doc.insert peer map key value) := by
  intro write hwrite hmap htext
  rcases List.mem_append.1 hwrite with hwrite | hwrite
  · exact h write hwrite hmap htext
  · obtain rfl := List.mem_singleton.1 hwrite
    exact hkey hmap

theorem Spelled.putMember (h : Spelled onCurve doc) (id : EndpointId onCurve) (name : String) :
    Spelled onCurve (doc.putMember peer (deviceHex id) name) := by
  rcases RosterDoc.putMember_eq peer (deviceHex id) name with heq | heq <;> rw [heq]
  · exact h
  · refine h.insert ?_ name
    rintro - other hother
    rw [parseDevice_deviceHex] at hother
    obtain rfl := Option.some.inj hother
    rfl

theorem Spelled.removeMember (h : Spelled onCurve doc) (at_ : String) :
    Spelled onCurve (doc.removeMember peer device at_) := by
  unfold RosterDoc.removeMember
  split
  · exact h
  · exact h.insert (by simp) at_

theorem Spelled.imported (h : Spelled onCurve doc) {update : List Write}
    (hupdate : Spelled onCurve update) : Spelled onCurve (doc.imported update) := by
  obtain ⟨more, hmore, hsubset⟩ :
    ∃ more, doc.imported update = doc ++ more ∧ more ⊆ update := RosterDoc.imported_eq_append update
  intro write hwrite hmap htext
  rw [hmore] at hwrite
  rcases List.mem_append.1 hwrite with hwrite | hwrite
  · exact h write hwrite hmap htext
  · exact hupdate write (hsubset hwrite) hmap htext

/-- What a name is written for takes no removal back. -/
theorem getString_putMember (key name : String) :
    (doc.putMember peer key name).getString .removed device = doc.getString .removed device := by
  rcases RosterDoc.putMember_eq peer key name with heq | heq <;> rw [heq]
  rw [RosterDoc.getString_insert, if_neg (by simp)]

/-- A removal that is written takes none back. -/
theorem getString_removeMember {key at_ : String}
    (h : (doc.getString .removed device).isSome = true) :
    ((doc.removeMember peer key at_).getString .removed device).isSome = true := by
  unfold RosterDoc.removeMember
  split
  · exact h
  · rw [RosterDoc.getString_insert]
    split
    · rfl
    · exact h

/-- A removal that is written names nobody, and takes no name back. -/
theorem getString_devices_removeMember {key at_ : String} :
    (doc.removeMember peer key at_).getString .devices device =
      doc.getString .devices device := by
  unfold RosterDoc.removeMember
  split
  · rfl
  · rw [RosterDoc.getString_insert, if_neg (by simp)]

theorem Spelled.strike (devices : List String) (at_ : String)
    {entries : RosterDoc × List String} (h : Spelled onCurve entries.1) :
    Spelled onCurve (devices.foldl (Space.strike peer at_) entries).1 := by
  induction devices generalizing entries with
  | nil => exact h
  | cons device devices ih => exact ih (h.removeMember at_)

/-- What striking some devices off keeps, and what it does. -/
theorem foldl_strike (peer : UInt64) (devices : List String) (at_ : String)
    (entries : RosterDoc × List String) :
    (∀ device, (entries.1.getString .removed device).isSome = true →
      (((devices.foldl (Space.strike peer at_) entries).1).getString .removed device).isSome =
        true) ∧
    (∀ device, ((devices.foldl (Space.strike peer at_) entries).1).getString .devices device =
      entries.1.getString .devices device) ∧
    entries.2 ⊆ (devices.foldl (Space.strike peer at_) entries).2 ∧
    devices ⊆ (devices.foldl (Space.strike peer at_) entries).2 := by
  induction devices generalizing entries with
  | nil => exact ⟨fun _ => id, fun _ => rfl, List.Subset.refl _, by simp⟩
  | cons first devices ih =>
      obtain ⟨hremoved, hnames, hkept, hmarked⟩ := ih (Space.strike peer at_ entries first)
      have hmark : ∀ key, key ∈ entries.2 ∨ key = first →
          key ∈ (Space.strike peer at_ entries first).2 := by
        intro key hkey
        unfold Space.strike
        dsimp only
        split
        · rcases hkey with hkey | rfl
          · exact hkey
          · assumption
        · simpa using hkey
      rw [List.foldl_cons]
      refine ⟨?_, ?_, ?_, ?_⟩
      · intro device hdevice
        exact hremoved device (getString_removeMember hdevice)
      · intro device
        exact (hnames device).trans getString_devices_removeMember
      · intro key hkey
        exact hkept (hmark key (.inl hkey))
      · intro key hkey
        rcases List.mem_cons.1 hkey with rfl | hkey
        · exact hkept (hmark key (.inr rfl))
        · exact hmarked hkey

end Writes

/-! ### One step -/

namespace Space

variable {space space' : Space onCurve} {event : Event onCurve}

@[simp] theorem isRemoved_forgotten (device : String) :
    space.forgotten.isRemoved device = isRemoved { space with doc := [] } device := rfl

/-- **What this replica removed itself stays in its table**, whatever comes in. -/
theorem mem_removedDevices_step (hstep : space.step event = some space') {device : String}
    (h : device ∈ space.removedDevices) : device ∈ space'.removedDevices := by
  cases event with
  | struckOff devices at_ =>
      obtain rfl := Option.some.inj hstep
      exact (foldl_strike _ devices at_ _).2.2.1 h
  | imported | admitted | renamed | left | forgotten | added | stopped | ended =>
      obtain rfl := Option.some.inj hstep
      exact h
  | membersChanged =>
      obtain rfl := Option.some.inj hstep
      split <;> exact h
  | accepted | dialChecked | served =>
      unfold step at hstep
      grind
  | dialed | registered =>
      obtain ⟨contact, -, rfl⟩ := Option.map_eq_some_iff.1 hstep
      exact h

end Space

/-! ### Runs -/

namespace Space

variable {space space' : Space onCurve} {event : Event onCurve}

/-- The device is no member: it is removed, or a removal was forgotten and nobody is named
since. -/
def Gone (space : Space onCurve) (device : String) : Prop :=
  space.isRemoved device = true ∨
    space.lost = true ∧ ∀ key, space.doc.getString .devices key = none

/-- **A removal stays**, or is forgotten. -/
theorem Gone.step {device : String} (h : space.Gone device) (hallowed : Allowed space event)
    (hstep : space.step event = some space') : space'.Gone device := by
  by_cases hmem : device ∈ space.removedDevices
  · exact .inl (isRemoved_iff.2 (.inr (mem_removedDevices_step hstep hmem)))
  cases event with
  | imported update =>
      obtain rfl := Option.some.inj hstep
      obtain ⟨hkept, -, hupdate⟩ := hallowed
      have hremoved := h.resolve_right fun hlost =>
        absurd (hkept.symm.trans hlost.1) Bool.false_ne_true
      refine .inl (isRemoved_iff.2 (.inl (RosterDoc.getString_imported
        ((isRemoved_iff.1 hremoved).resolve_right hmem) ?_)))
      intro write hwrite hplace
      obtain ⟨hmap, rfl⟩ : write.map = .removed ∧ write.key = device := by
        simpa [Write.place] using hplace
      rcases hupdate write hwrite hmap hremoved with htext | htable | houtdated
      · exact .inl htext
      · exact absurd htable hmem
      · exact .inr houtdated
  | admitted | renamed =>
      obtain rfl := Option.some.inj hstep
      have hkept : space.lost = false := hallowed
      have hremoved := h.resolve_right fun hlost =>
        absurd (hkept.symm.trans hlost.1) Bool.false_ne_true
      exact .inl (isRemoved_iff.2 (.inl ((congrArg Option.isSome
        (getString_putMember _ _)).trans ((isRemoved_iff.1 hremoved).resolve_right hmem))))
  | struckOff devices at_ =>
      obtain rfl := Option.some.inj hstep
      obtain ⟨hstays, hnames, htable, -⟩ := foldl_strike space.peer devices at_
        (space.doc, space.removedDevices)
      rcases h with hremoved | ⟨hlost, hnameless⟩
      · rcases isRemoved_iff.1 hremoved with hread | htabled
        · exact .inl (isRemoved_iff.2 (.inl (hstays device hread)))
        · exact .inl (isRemoved_iff.2 (.inr (htable htabled)))
      · exact .inr ⟨hlost, fun key => (hnames key).trans (hnameless key)⟩
  | left at_ =>
      obtain rfl := Option.some.inj hstep
      rcases h with hremoved | ⟨hlost, hnameless⟩
      · exact .inl (isRemoved_iff.2 (.inl (getString_removeMember
          ((isRemoved_iff.1 hremoved).resolve_right hmem))))
      · exact .inr ⟨hlost, fun key => getString_devices_removeMember.trans (hnameless key)⟩
  | forgotten =>
      obtain rfl := Option.some.inj hstep
      refine .inr ⟨?_, fun key => rfl⟩
      rcases h with hremoved | ⟨hlost, -⟩
      · -- the table has it not, so a write of the document said it
        have hread := (isRemoved_iff.1 hremoved).resolve_right hmem
        obtain ⟨write, hlast, -⟩ := RosterDoc.exists_of_getString hread
        obtain ⟨hwrite, hplace, -⟩ := RosterDoc.last_eq_some hlast
        obtain ⟨-, rfl⟩ : write.map = .removed ∧ write.key = device := by
          simpa [Write.place] using hplace
        have hany : ((space.doc.map Write.key).any fun key =>
            space.isRemoved key && !space.removedDevices.contains key) = true :=
          List.any_eq_true.2 ⟨write.key, List.mem_map_of_mem hwrite, by simp [hremoved, hmem]⟩
        show (space.lost || _) = true
        rw [hany, Bool.or_true]
      · show (space.lost || _) = true
        rw [hlost, Bool.true_or]
  | added | stopped | ended =>
      obtain rfl := Option.some.inj hstep
      exact h
  | membersChanged =>
      obtain rfl := Option.some.inj hstep
      split <;> exact h
  | accepted | served =>
      unfold Space.step at hstep
      dsimp only at hstep
      split at hstep
      · exact Option.some.inj hstep ▸ h
      · cases hstep
  | dialChecked =>
      unfold Space.step at hstep
      dsimp only at hstep
      split at hstep
      · exact Option.some.inj hstep ▸ h
      · split at hstep
        · exact Option.some.inj hstep ▸ h
        · cases hstep
  | dialed | registered =>
      obtain ⟨contact, -, rfl⟩ := Option.map_eq_some_iff.1 hstep
      exact h

/-- Contacts that are members stay so while the roster does. -/
theorem Sound.of_subset (h : Sound space) {running lost : Bool}
    {links joining dialing : List (Contact onCurve)} {dialers : List (EndpointId onCurve)}
    (hlinks : ∀ contact ∈ links, contact.struck = false → space.isMember contact.device = true)
    (hjoining : ∀ contact ∈ joining, contact.struck = false →
      space.isMember contact.device = true)
    (hdialing : ∀ contact ∈ dialing, contact.struck = false →
      space.isMember contact.device = true) :
    Sound { space with
      running := running, links := links, joining := joining, dialers := dialers
      dialing := dialing, lost := lost } :=
  ⟨h.spelled, hlinks, hjoining, hdialing⟩

/-- Who is kept was looked up just now. -/
theorem Sound.membersChanged (h : Sound space) : Sound space.membersChanged := by
  have hkept : ∀ contacts : List (Contact onCurve),
      ∀ contact ∈ (contacts.filter fun contact => contact.device ∈
          space.rosterMembers.filter (· ≠ space.me)).map fun contact : Contact onCurve =>
            { contact with struck := false },
        contact.struck = false → space.isMember contact.device = true := by
    intro contacts contact hcontact _
    obtain ⟨before, hbefore, rfl⟩ := List.mem_map.1 hcontact
    have hmember := of_decide_eq_true (List.mem_filter.1 hbefore).2
    exact List.contains_iff_mem.2 (List.mem_filter.1 hmember).1
  exact h.of_subset (hkept space.links) h.joining (hkept space.dialing)

/-- Where the space is not at the engine, nobody is dealt with. -/
theorem Sound.stopped (h : Sound space) (running : Bool) :
    Sound { space.stopped with running := running } :=
  h.of_subset (fun _ hmem => nomatch hmem) (fun _ hmem => nomatch hmem) fun _ hmem => nomatch hmem

/-- **The contacts after a step** that were not struck off since their check are members. -/
theorem Sound.step (h : Sound space) (hallowed : Allowed space event)
    (hstep : space.step event = some space') : Sound space' := by
  cases event with
  | imported update =>
      obtain rfl := Option.some.inj hstep
      exact h.changed (h.spelled.imported hallowed.2.1) _
  | admitted device name =>
      obtain rfl := Option.some.inj hstep
      exact h.changed (h.spelled.putMember device name) _
  | renamed name =>
      obtain rfl := Option.some.inj hstep
      exact h.changed (h.spelled.putMember space.me name) _
  | struckOff devices at_ =>
      obtain rfl := Option.some.inj hstep
      exact h.changed (Spelled.strike devices at_ h.spelled) _
  | left at_ =>
      obtain rfl := Option.some.inj hstep
      exact h.changed (h.spelled.removeMember at_) _
  | forgotten =>
      obtain rfl := Option.some.inj hstep
      have hchanged : Sound (space.changed [] space.removedDevices) :=
        h.changed (by simp [Spelled]) _
      exact hchanged.of_subset hchanged.links hchanged.joining hchanged.dialing
  | added =>
      obtain rfl := Option.some.inj hstep
      exact (h.stopped true).membersChanged
  | stopped =>
      obtain rfl := Option.some.inj hstep
      exact h.stopped false
  | membersChanged =>
      obtain rfl := Option.some.inj hstep
      split
      · exact h.membersChanged
      · exact h
  | accepted device =>
      unfold Space.step at hstep
      dsimp only at hstep
      split at hstep
      · rename_i hmember
        obtain rfl := Option.some.inj hstep
        refine h.of_subset h.links ?_ h.dialing
        intro contact hcontact hstruck
        rcases List.mem_cons.1 hcontact with rfl | hcontact
        · exact hmember.2
        · exact h.joining contact hcontact hstruck
      · exact nomatch hstep
  | dialChecked device =>
      have hrest : ∀ contact ∈ space.dialing.filter (·.device ≠ device),
          contact.struck = false → space.isMember contact.device = true :=
        fun contact hcontact => h.dialing contact (List.mem_of_mem_filter hcontact)
      unfold Space.step at hstep
      dsimp only at hstep
      split at hstep
      · rename_i hchecked
        obtain rfl := Option.some.inj hstep
        refine h.of_subset h.links h.joining ?_
        intro contact hcontact hstruck
        rcases List.mem_cons.1 hcontact with rfl | hcontact
        · exact hchecked.2
        · exact hrest contact hcontact hstruck
      · split at hstep
        · obtain rfl := Option.some.inj hstep
          exact h.of_subset h.links h.joining hrest
        · exact nomatch hstep
  | dialed device connects =>
      obtain ⟨contact, hfind, rfl⟩ := Option.map_eq_some_iff.1 hstep
      refine h.of_subset h.links ?_ fun other hother =>
        h.dialing other (List.mem_of_mem_filter hother)
      intro other hother hstruck
      cases connects with
      | false => exact h.joining other hother hstruck
      | true =>
          rcases List.mem_cons.1 hother with rfl | hother
          · exact h.dialing other (List.mem_of_find?_eq_some hfind) hstruck
          · exact h.joining other hother hstruck
  | registered device =>
      obtain ⟨contact, hfind, rfl⟩ := Option.map_eq_some_iff.1 hstep
      refine h.of_subset ?_ (fun other hother => h.joining other (List.mem_of_mem_erase hother))
        h.dialing
      intro other hother hstruck
      rcases List.mem_cons.1 hother with rfl | hother
      · exact h.joining other (List.mem_of_find?_eq_some hfind) hstruck
      · exact h.links other (List.mem_of_mem_filter hother) hstruck
  | served device =>
      unfold Space.step at hstep
      dsimp only at hstep
      split at hstep
      · obtain rfl := Option.some.inj hstep
        exact h
      · exact nomatch hstep
  | ended device =>
      obtain rfl := Option.some.inj hstep
      exact h.of_subset (fun contact hcontact =>
        h.links contact (List.mem_of_mem_filter hcontact)) h.joining h.dialing

theorem sound_start (me : EndpointId onCurve) (peer : UInt64) (removedDevices : List String) :
    Sound (start me peer removedDevices) := by
  constructor <;> simp [start, Spelled]

end Space

end Members
end ZuTalk
