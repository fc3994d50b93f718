import TriReg.Proofs.StoredFault

namespace TriReg.Machine

/-- The register, or the slot within the stack, holds the value. -/
def HoldsAt (m : Machine) : Address → Value → Prop
  | .register r, v => m.registers.get r = v
  | .slot index, v => m.stack[index]? = some v
  | .reference _, _ => False

/-- The value names the slot. Slot 0 is named by its pointer alone. -/
inductive Names (m : Machine) : Value → Nat → Prop
  | integer {n : Int64} (hpos : 0 < n.toInt) (hsize : n.toInt < m.stack.size) :
      Names m (.integer n) n.toInt.toNat
  | pointer {index : Nat} (hsize : index < m.stack.size) : Names m (.pointer (.slot index)) index

/-- The value names nothing within the stack, and the location says what it is instead. -/
inductive NamesNone (m : Machine) : Value → Location → Prop
  | integer {n : Int64} (hout : ¬(0 < n.toInt ∧ n.toInt < m.stack.size)) :
      NamesNone m (.integer n) (.value (.integer n))
  | pointer {index : Nat} (hsize : m.stack.size ≤ index) :
      NamesNone m (.pointer (.slot index)) (.slot index)
  | text (s : String) : NamesNone m (.text s) (.value (.text s))
  | uninitialized : NamesNone m .uninitialized (.value .uninitialized)

inductive Denotes (m : Machine) : Address → Cell → Prop
  | register (r : Register) : Denotes m (.register r) (.register r)
  | slot {index : Nat} (hsize : index < m.stack.size) : Denotes m (.slot index) (.slot index)
  | reference {target : Address} {v : Value} {index : Nat} (hheld : m.HoldsAt target v)
      (hnames : m.Names v index) : Denotes m (.reference target) (.slot index)

/-- The address breaks a rule of pointers: it has two references, or goes through a pointer to a
register or to a reference. -/
inductive Segfaults (m : Machine) : Address → Fault → Prop
  | double (inner : Address) : Segfaults m (.reference (.reference inner)) .doubleIndirection
  | register {target : Address} {r : Register} (hheld : m.HoldsAt target (.pointer (.register r))) :
      Segfaults m (.reference target) .registerPosition
  | reference {target inner : Address} (hheld : m.HoldsAt target (.pointer (.reference inner))) :
      Segfaults m (.reference target) .doubleIndirection

/-- The reference is to a slot that there is not. -/
def LacksPointer (m : Machine) (place : Address) : Prop :=
  ∃ index, place = .reference (.slot index) ∧ m.stack.size ≤ index

/-- The address is outside the stack, or goes through a slot or to a slot that is, or goes through a
value that names no slot. -/
inductive Misses (m : Machine) : Address → Location → Prop
  | slot {index : Nat} (hsize : m.stack.size ≤ index) : Misses m (.slot index) (.slot index)
  | target {index : Nat} (hsize : m.stack.size ≤ index) :
      Misses m (.reference (.slot index)) (.slot index)
  | held {target : Address} {v : Value} {location : Location} (hheld : m.HoldsAt target v)
      (hnone : m.NamesNone v location) : Misses m (.reference target) location

/-- The address misses at a slot with an index that is too long to be written. -/
def MissesTooFar (m : Machine) (place : Address) : Prop :=
  ∃ index, m.Misses place (.slot index) ∧ Numeral.writable index = false

/-- Reading and writing succeed together, at the cell that the address denotes, and fail without an
effect. -/
structure Accesses (m : Machine) (place : Address) (v : Value) : Prop where
  fails_iff : (∃ failure, m.get (.address place) = .error failure) ↔
    ∃ failure, m.set place v = .error failure
  reads_iff : (∃ w, m.get (.address place) = .ok w) ↔ ∃ c, m.Denotes place c
  writes_iff : (∃ after, m.set place v = .ok after) ↔ ∃ c, m.Denotes place c
  register : ∀ r, m.Denotes place (.register r) →
    m.get (.address place) = .ok (m.registers.get r) ∧
      m.set place v = .ok { m with registers := m.registers.set r v }
  slot : ∀ index, m.Denotes place (.slot index) → ∃ hsize : index < m.stack.size,
    m.get (.address place) = .ok m.stack[index] ∧
      m.set place v = .ok { m with stack := m.stack.set index v }
  read_unchanged : ∀ failure, m.get (.address place) = .error failure → ∀ p pc,
    m.perform p pc (.ret (.address place)) = ⟨m, none, .error failure⟩
  write_unchanged : ∀ failure, m.set place v = .error failure → ∀ p pc,
    m.perform p pc (.move place (.literal v)) = ⟨m, none, .error failure⟩

/-- An access that fails does so for the rule that the address breaks, or else for the location at
which it misses. Writing is refused as a write unless the pointer was missing already. -/
structure FaultsByKind (m : Machine) (place : Address) (v : Value) : Prop where
  segmentation : ∀ cause, m.Segfaults place cause →
    m.get (.address place) = .error (.fault cause) ∧ m.set place v = .error (.fault cause)
  otherwise : (∀ cause, ¬ m.Segfaults place cause) →
    ∀ failure, m.get (.address place) = .error failure → ∃ location, m.Misses place location ∧
      failure = .fault (.outOfReach .read location) ∧
      ∃ access, (access = .read ↔ m.LacksPointer place) ∧
        m.set place v = .error (.fault (.outOfReach access location))

variable {m : Machine} {access : Access} {place target : Address} {v : Value} {c : Cell}
variable {index : Nat} {location : Location} {cause : Fault}

theorem holdsAt_or (m : Machine) (target : Address) :
    (∃ v, m.HoldsAt target v) ∨ (∃ index, target = .slot index ∧ m.stack.size ≤ index) ∨
      ∃ inner, target = .reference inner := by
  cases target with
  | register r => exact .inl ⟨_, rfl⟩
  | slot index =>
      rcases Nat.lt_or_ge index m.stack.size with hsize | hsize
      · exact .inl ⟨m.stack[index], Array.getElem?_eq_getElem hsize⟩
      · exact .inr (.inl ⟨index, rfl, hsize⟩)
  | reference inner => exact .inr (.inr ⟨inner, rfl⟩)

theorem names_or (m : Machine) (v : Value) :
    (∃ index, m.Names v index) ∨ (∃ location, m.NamesNone v location) ∨
      (∃ r, v = .pointer (.register r)) ∨ ∃ inner, v = .pointer (.reference inner) := by
  cases v with
  | integer n =>
      by_cases hin : 0 < n.toInt ∧ n.toInt < m.stack.size
      · exact .inl ⟨_, .integer hin.1 hin.2⟩
      · exact .inr (.inl ⟨_, .integer hin⟩)
  | text s => exact .inr (.inl ⟨_, .text s⟩)
  | pointer address =>
      cases address with
      | register r => exact .inr (.inr (.inl ⟨r, rfl⟩))
      | slot index =>
          rcases Nat.lt_or_ge index m.stack.size with hsize | hsize
          · exact .inl ⟨index, .pointer hsize⟩
          · exact .inr (.inl ⟨_, .pointer hsize⟩)
      | reference inner => exact .inr (.inr (.inr ⟨inner, rfl⟩))
  | uninitialized => exact .inr (.inl ⟨_, .uninitialized⟩)

theorem denotes_or (m : Machine) (place : Address) :
    (∃ c, m.Denotes place c) ∨ (∃ cause, m.Segfaults place cause) ∨
      ∃ location, m.Misses place location := by
  cases place with
  | register r => exact .inl ⟨_, .register r⟩
  | slot index =>
      rcases Nat.lt_or_ge index m.stack.size with hsize | hsize
      · exact .inl ⟨_, .slot hsize⟩
      · exact .inr (.inr ⟨_, .slot hsize⟩)
  | reference target =>
      rcases m.holdsAt_or target with ⟨v, hheld⟩ | ⟨index, rfl, hsize⟩ | ⟨inner, rfl⟩
      · rcases m.names_or v with ⟨index, hnames⟩ | ⟨location, hnone⟩ | ⟨r, rfl⟩ | ⟨inner, rfl⟩
        · exact .inl ⟨_, .reference hheld hnames⟩
        · exact .inr (.inr ⟨location, .held hheld hnone⟩)
        · exact .inr (.inl ⟨_, .register hheld⟩)
        · exact .inr (.inl ⟨_, .reference hheld⟩)
      · exact .inr (.inr ⟨_, .target hsize⟩)
      · exact .inr (.inl ⟨_, .double inner⟩)

theorem slotIndex_of_names (h : m.Names v index) (access : Access) :
    m.slotIndex access v = .ok index := by
  cases h with
  | integer hpos hsize => exact if_pos ⟨hpos, hsize⟩
  | pointer hsize => exact if_pos hsize

theorem slotIndex_of_namesNone (h : m.NamesNone v location) (access : Access) :
    m.slotIndex access v = .error (.outOfReach access location) := by
  cases h with
  | integer hout => exact if_neg hout
  | pointer hsize => exact if_neg (Nat.not_lt.mpr hsize)
  | text | uninitialized => rfl

theorem cell_slot_of_le (hsize : m.stack.size ≤ index) (access : Access) :
    m.cell access (.slot index) = .error (.outOfReach access (.slot index)) := by
  rw [cell, if_neg (Nat.not_lt.mpr hsize)]

theorem cell_reference_of_holdsAt (h : m.HoldsAt target v) (access : Access) :
    m.cell access (.reference target) = (m.slotIndex access v).map .slot := by
  cases target with
  | register r =>
      cases h
      rw [cell_reference m access (by simp)]
      rfl
  | slot index =>
      obtain ⟨hsize, rfl⟩ := Array.getElem?_eq_some_iff.mp h
      rw [cell_reference m access (by simp), cell, if_pos hsize, ← content_slot hsize]
      rfl
  | reference inner => exact absurd h id

theorem cell_of_denotes (h : m.Denotes place c) (access : Access) :
    m.cell access place = .ok c := by
  cases h with
  | register r => rfl
  | slot hsize => rw [cell, if_pos hsize]
  | reference hheld hnames =>
      rw [cell_reference_of_holdsAt hheld, slotIndex_of_names hnames]
      rfl

theorem cell_of_segfaults (h : m.Segfaults place cause) (access : Access) :
    m.cell access place = .error (.fault cause) := by
  cases h with
  | double inner => exact cell_double_reference m access inner
  | register hheld | reference hheld =>
      rw [cell_reference_of_holdsAt hheld]
      rfl

theorem not_lacksPointer_of_holdsAt (h : m.HoldsAt target v) :
    ¬ m.LacksPointer (.reference target) := by
  rintro ⟨index, htarget, hsize⟩
  cases htarget
  obtain ⟨hlt, -⟩ := Array.getElem?_eq_some_iff.mp h
  exact absurd hlt (Nat.not_lt.mpr hsize)

/-- An access that misses is refused as it is, and as a read where the pointer is missing. -/
theorem cell_of_misses (h : m.Misses place location) (access : Access) :
    ∃ refused, (refused = .read ↔ access = .read ∨ m.LacksPointer place) ∧
      m.cell access place = .error (.outOfReach refused location) := by
  cases h with
  | slot hsize =>
      refine ⟨access, ?_, cell_slot_of_le hsize access⟩
      simp [LacksPointer]
  | @target index hsize =>
      refine ⟨.read, iff_of_true rfl (.inr ⟨index, rfl, hsize⟩), ?_⟩
      rw [cell_reference m access (by simp), cell_slot_of_le hsize]
      rfl
  | held hheld hnone =>
      refine ⟨access, ?_, ?_⟩
      · rw [or_iff_left (not_lacksPointer_of_holdsAt hheld)]
      · rw [cell_reference_of_holdsAt hheld, slotIndex_of_namesNone hnone]
        rfl

theorem cell_eq_ok_iff : m.cell access place = .ok c ↔ m.Denotes place c := by
  constructor
  · intro h
    rcases m.denotes_or place with ⟨c', hdenotes⟩ | ⟨cause, hsegfaults⟩ | ⟨location, hmisses⟩
    · rw [cell_of_denotes hdenotes] at h
      cases h
      exact hdenotes
    · rw [cell_of_segfaults hsegfaults] at h
      cases h
    · obtain ⟨refused, -, hcell⟩ := cell_of_misses hmisses access
      rw [hcell] at h
      cases h
  · intro h
    exact cell_of_denotes h access

theorem exists_get_ok_iff : (∃ w, m.get (.address place) = .ok w) ↔ ∃ c, m.Denotes place c := by
  simp only [get, exists_map_eq_ok_iff, cell_eq_ok_iff]

theorem exists_set_ok_iff : (∃ after, m.set place v = .ok after) ↔ ∃ c, m.Denotes place c := by
  simp only [set, exists_map_eq_ok_iff, cell_eq_ok_iff]

theorem accesses (m : Machine) (place : Address) (v : Value) : m.Accesses place v where
  fails_iff := by
    rw [exists_error_iff, exists_error_iff, exists_get_ok_iff, exists_set_ok_iff]
  reads_iff := exists_get_ok_iff
  writes_iff := exists_set_ok_iff
  register r hdenotes := by
    rw [get, set, cell_of_denotes hdenotes, cell_of_denotes hdenotes]
    exact ⟨rfl, rfl⟩
  slot index hdenotes := by
    have hsize : index < m.stack.size := hasCell_of_cell (cell_of_denotes hdenotes .read)
    rw [get, set, cell_of_denotes hdenotes, cell_of_denotes hdenotes, Except.map, Except.map,
      content_slot hsize, store_slot hsize]
    exact ⟨hsize, rfl, rfl⟩
  read_unchanged failure hget p pc := perform_eq_of_performed (.unreadable hget)
  write_unchanged failure hset p pc :=
    perform_eq_of_performed (.refused rfl (execute_of_refused (.move rfl hset)))

theorem get_of_misses (h : m.Misses place location) :
    m.get (.address place) = .error (.outOfReach .read location) := by
  obtain ⟨refused, hrefused, hcell⟩ := cell_of_misses h .read
  rw [get, hcell, hrefused.mpr (.inl rfl)]
  rfl

theorem set_of_misses (h : m.Misses place location) (v : Value) :
    ∃ access, (access = .read ↔ m.LacksPointer place) ∧
      m.set place v = .error (.outOfReach access location) := by
  obtain ⟨refused, hrefused, hcell⟩ := cell_of_misses h .write
  refine ⟨refused, by simpa using hrefused, ?_⟩
  rw [set, hcell]
  rfl

theorem numeral_of_missesTooFar (h : m.MissesTooFar place) (v : Value) :
    m.get (.address place) = .error (.numeral .writing) ∧
      m.set place v = .error (.numeral .writing) := by
  obtain ⟨index, hmisses, hindex⟩ := h
  obtain ⟨access, -, hset⟩ := set_of_misses hmisses v
  have hnumeral (access : Access) : Failure.outOfReach access (.slot index) = .numeral .writing :=
    Failure.outOfReach_slot_eq_numeral_iff.mpr ⟨rfl, hindex⟩
  rw [get_of_misses hmisses, hset, hnumeral, hnumeral]
  exact ⟨rfl, rfl⟩

theorem outOfReach_of_not_missesTooFar (hmisses : m.Misses place location)
    (hnear : ¬ m.MissesTooFar place) (access : Access) :
    Failure.outOfReach access location = .fault (.outOfReach access location) := by
  cases location with
  | slot index =>
      have hindex : Numeral.writable index = true := by
        by_contra hlong
        exact hnear ⟨index, hmisses, Bool.eq_false_iff.mpr hlong⟩
      rw [Failure.outOfReach, if_pos hindex]
  | value w => rfl

theorem not_faultsByKind_of_missesTooFar (h : m.MissesTooFar place) (v : Value) :
    ¬ m.FaultsByKind place v := by
  intro hfaults
  obtain ⟨hget, -⟩ := numeral_of_missesTooFar h v
  by_cases hsegfaults : ∃ cause, m.Segfaults place cause
  · obtain ⟨cause, hcause⟩ := hsegfaults
    rw [(hfaults.segmentation cause hcause).1] at hget
    cases hget
  · obtain ⟨location, -, hfault, -⟩ := hfaults.otherwise (not_exists.mp hsegfaults) _ hget
    cases hfault

theorem faultsByKind_of_not_missesTooFar (hnear : ¬ m.MissesTooFar place) (v : Value) :
    m.FaultsByKind place v where
  segmentation cause hsegfaults := by
    rw [get, set, cell_of_segfaults hsegfaults, cell_of_segfaults hsegfaults]
    exact ⟨rfl, rfl⟩
  otherwise hsegfaults failure hget := by
    rcases m.denotes_or place with hdenotes | ⟨cause, hcause⟩ | ⟨location, hmisses⟩
    · exact absurd (exists_get_ok_iff.mpr hdenotes) (exists_error_iff.mp ⟨failure, hget⟩)
    · exact absurd hcause (hsegfaults cause)
    · obtain ⟨access, haccess, hset⟩ := set_of_misses hmisses v
      have houtOfReach := outOfReach_of_not_missesTooFar hmisses hnear
      rw [get_of_misses hmisses, houtOfReach] at hget
      rw [houtOfReach] at hset
      exact ⟨location, hmisses, (Except.error.inj hget).symm, access, haccess, hset⟩

/-- Reading and writing succeed at the same addresses, those that denote a cell. They fail for the
rule that the address breaks or for the location at which it misses, unless it misses too far; then
neither of them has a fault. -/
theorem accesses_and_faultsByKind_iff (m : Machine) (place : Address) (v : Value) :
    m.Accesses place v ∧ (m.FaultsByKind place v ↔ ¬ m.MissesTooFar place) ∧
      (m.MissesTooFar place → m.get (.address place) = .error (.numeral .writing) ∧
        m.set place v = .error (.numeral .writing)) := by
  refine ⟨m.accesses place v, ⟨?_, ?_⟩, ?_⟩
  · intro hfaults hfar
    exact not_faultsByKind_of_missesTooFar hfar v hfaults
  · intro hnear
    exact faultsByKind_of_not_missesTooFar hnear v
  · intro hfar
    exact numeral_of_missesTooFar hfar v

/-- Where the pointer itself is out of reach, a write is refused as a read. -/
example : (fresh 4).set (.reference (.slot 9)) (.integer 1) =
    .error (.fault (.outOfReach .read (.slot 9))) := by
  decide +kernel

theorem hugePointer_access_without_fault :
    ¬ ∀ (m : Machine) (place : Address) (v : Value),
      m.Accesses place v ∧ m.FaultsByKind place v := by
  intro hall
  have hsize : Session.hugePointerSession.machine.stack.size ≤
      Session.longestIndex + Session.longestIndex := by decide +kernel
  have hindex : Numeral.writable (Session.longestIndex + Session.longestIndex) = false := by
    decide +kernel
  have hfar : Session.hugePointerSession.machine.MissesTooFar (.reference (.register .rax)) :=
    ⟨_, .held rfl (.pointer hsize), hindex⟩
  exact not_faultsByKind_of_missesTooFar hfar .uninitialized (hall _ _ _).2

end TriReg.Machine
