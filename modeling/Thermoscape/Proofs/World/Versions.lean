import Thermoscape.Proofs.Snapshot.Overflow
import Thermoscape.Proofs.World.Restore
import Thermoscape.Proofs.World.Resume

/-!
# Thermoscape.Proofs.World.Versions

**What the version of a header decides.** A snapshot can be put behind a header of any
version, and nothing is checked when this is done: neither that the version exists nor that
there is a temperature for every cell. Loading such bytes finds the faults in the order in
which they stand, a version that is too new before a wrong number of temperatures.

A version that is not too new decides about what is reported and about nothing else. The
header may be older than the current format, and it may name another version than the
snapshot; each of the two is reported for itself, and the snapshot is the same in all cases.
-/

namespace Thermoscape

/-! ### Bytes behind any header -/

/-- A file whose version is newer than the current one is refused for it. -/
theorem Stored.newerVersion {bytes name after : Octets} {version : UInt16} {s : Snapshot}
    (h : Stored bytes version name s after) (hnewer : 1 < version) :
    NewerVersion bytes version where
  present := h.header_le_length
  magic_eq := h.wordAt_magic
  found_eq := h.wordAt_version.symm
  newer := hnewer

namespace Snapshot

variable {s : Snapshot} {version : UInt16}

theorem toBytesAs_eq (version : UInt16) (s : Snapshot) :
    s.toBytesAs version = Header.layout version ++ s.payload := by
  rw [toBytesAs, toOctets_write, payload_eq, Header.toOctets_write, Builder.toOctets_empty,
    List.nil_append]

theorem stored_toBytesAs (version : UInt16) (s : Snapshot) :
    Stored (s.toBytesAs version) version (Builder.kept s.name) s [] := by
  have stored := s.stored_payload version []
  rwa [List.append_nil, ← toBytesAs_eq] at stored

theorem ofBytes_toBytesAs_newer (hnewer : 1 < version) :
    ofBytes (s.toBytesAs version) = .error (.undecodable (.newerVersion version 1)) :=
  ofBytes_eq_newerVersion_iff.mpr ⟨(stored_toBytesAs version s).newerVersion hnewer, rfl⟩

theorem ofBytes_toBytesAs_wrongCount (hversion : version ≤ 1)
    (hlt : s.temperatures.length < UInt32.size) (hne : s.temperatures.length ≠ s.extent.count) :
    ofBytes (s.toBytesAs version)
      = .error (.cellCount s.extent.count s.temperatures.length) := by
  have hstored : s.temperatures.length % UInt32.size = s.temperatures.length :=
    Nat.mod_eq_of_lt hlt
  have wrong := (stored_toBytesAs version s).wrongCount hversion (by rwa [hstored])
  rw [hstored] at wrong
  exact ofBytes_eq_cellCount_iff.mpr wrong

theorem loaded_toBytesAs (fits : s.Fits)
    (hname : (Utf8.encode s.name).length ≤ Builder.maxTextLength) (hversion : version ≤ 1) :
    Loaded.ofBytes (s.toBytesAs version) = .ok ⟨version, s⟩ := by
  have crosses := Cursor.crosses_of_append 0 (Header.layout version ++ s.payload) []
  have hread := loaded_eq_of_crosses fits hname hversion crosses
  rw [List.append_nil, ← toBytesAs_eq] at hread
  exact Loaded.ofBytes_eq_ok_iff.mpr ⟨_, hread⟩

end Snapshot

/-! ### Loading, with its reports -/

namespace Host

/-- Bytes that hold no snapshot leave no trace. -/
theorem load_eq_error {bytes : Octets} {e : SaveError} (he : Snapshot.ofBytes bytes = .error e)
    (h : Host) : Host.load bytes h = .error e h := by
  rcases load_cases bytes h with ⟨e', he', hload⟩ | ⟨r, log, hr, -⟩
  · cases he.symm.trans he'
    exact hload
  · cases he.symm.trans hr

/-- **Loading a snapshot from behind a header of any version.** Let the counts of the snapshot
fit the words that they are stored in; the number of temperatures may be wrong. A version that
is too new is refused, then a wrong number of temperatures, and neither is reported in the log.
Otherwise the snapshot comes back as it was, with a warning if the version is an older one, a
warning if the snapshot names another version, and a note of what was loaded. Which of the
accepted versions the header declares makes no difference to the snapshot. -/
theorem load_toBytesAs {s : Snapshot} (hname : (Utf8.encode s.name).length ≤ UInt32.size - 1)
    (htemperatures : s.temperatures.length < UInt32.size)
    (hcreatures : s.creatures.length < UInt32.size)
    (hdna : ∀ c ∈ s.creatures, c.dna.length < UInt32.size) (version : UInt16) (h : Host) :
    let cells := s.extent.width.toNat * s.extent.height.toNat
    let warnings : List Event :=
      (if version < 1 then [.olderVersion version 1] else [])
        ++ if s.formatVersion ≠ version.toUInt32 then [.versionsDisagree version s.formatVersion]
          else []
    let note : Event := .decoded s.name s.extent s.creatures.length
    Host.load (s.toBytesAs version) h
        = (if 1 < version then .error (.undecodable (.newerVersion version 1)) h
          else if s.temperatures.length ≠ cells then
            .error (.cellCount cells s.temperatures.length) h
          else .ok s { h with log := h.log ++ (warnings ++ [note]) })
      ∧ (∀ event ∈ warnings, event.level = .warn) ∧ note.level = .debug
      ∧ ∀ version', version ≤ 1 → version' ≤ 1 →
          Snapshot.ofBytes (s.toBytesAs version) = Snapshot.ofBytes (s.toBytesAs version') := by
  intro cells warnings note
  have hloads : s.temperatures.length = cells → ∀ v ≤ 1,
      Loaded.ofBytes (s.toBytesAs v) = .ok ⟨v, s⟩ := by
    intro hcount v hv
    exact Snapshot.loaded_toBytesAs
      ((Snapshot.fits_iff hcount).mpr ⟨htemperatures, hcreatures, hdna⟩) hname hv
  refine ⟨?_, ?_, rfl, ?_⟩
  · -- The version stands in front of the number of temperatures and is looked at first.
    by_cases hnewer : 1 < version
    · rw [if_pos hnewer]
      exact load_eq_error (Snapshot.ofBytes_toBytesAs_newer hnewer) h
    · have hversion : version ≤ 1 := UInt16.not_lt.mp hnewer
      rw [if_neg hnewer]
      by_cases hcount : s.temperatures.length = cells
      · rw [if_neg (not_not_intro hcount)]
        exact load_eq_ok_log (hloads hcount version hversion) h
      · rw [if_pos hcount]
        exact load_eq_error
          (Snapshot.ofBytes_toBytesAs_wrongCount hversion htemperatures hcount) h
  · intro event hevent
    simp only [warnings, List.mem_append, List.mem_ite_nil_right, List.mem_singleton] at hevent
    rcases hevent with ⟨-, rfl⟩ | ⟨-, rfl⟩
    · rfl
    · rfl
  · intro version' hversion hversion'
    by_cases hcount : s.temperatures.length = cells
    · rw [Snapshot.ofBytes, Snapshot.ofBytes, hloads hcount version hversion,
        hloads hcount version' hversion']
      rfl
    · rw [Snapshot.ofBytes_toBytesAs_wrongCount hversion htemperatures hcount,
        Snapshot.ofBytes_toBytesAs_wrongCount hversion' htemperatures hcount]

/-- A snapshot that names version 1, with a NaN that has a payload and a creature. Behind a
header of version 0 it is loaded with both warnings in front of the note; behind one of version
2 it is refused; and with a temperature too few it is refused for that. -/
theorem load_toBytesAs_older :
    let s : Snapshot :=
      { name := "é", timestamp := 7, formatVersion := 1, extent := ⟨1, 2⟩, time := .one
        ambient := .negativeZero, temperatures := [⟨0x7ff0000000000001⟩, .negativeZero]
        creatures := [⟨⟨0x7fc00001⟩, ⟨0⟩, ⟨0⟩, [1, 2, 3]⟩] }
    let h : Host := { clock := 9 }
    (Utf8.encode s.name).length ≤ UInt32.size - 1 ∧ s.temperatures.length < UInt32.size
      ∧ s.creatures.length < UInt32.size ∧ (∀ c ∈ s.creatures, c.dna.length < UInt32.size)
      ∧ Host.load (s.toBytesAs 0) h
          = .ok s { h with
              log := [.olderVersion 0 1, .versionsDisagree 0 1, .decoded "é" ⟨1, 2⟩ 1] }
      ∧ Host.load (s.toBytesAs 2) h = .error (.undecodable (.newerVersion 2 1)) h
      ∧ Host.load ({ s with temperatures := [.one] }.toBytesAs 0) h
          = .error (.cellCount 2 1) h := by
  intro s h
  have hname : (Utf8.encode s.name).length ≤ UInt32.size - 1 := by decide
  have htemperatures : s.temperatures.length < UInt32.size := by decide
  have hcreatures : s.creatures.length < UInt32.size := by decide
  have hdna : ∀ c ∈ s.creatures, c.dna.length < UInt32.size := by decide
  refine ⟨hname, htemperatures, hcreatures, hdna, ?_, ?_, ?_⟩
  · exact (load_toBytesAs hname htemperatures hcreatures hdna 0 h).1
  · exact (load_toBytesAs hname htemperatures hcreatures hdna 2 h).1
  · exact (load_toBytesAs (s := { s with temperatures := [.one] }) hname (by decide) hcreatures
      hdna 0 h).1

end Host

end Thermoscape
