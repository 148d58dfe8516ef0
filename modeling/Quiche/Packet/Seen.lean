import Mathlib.Data.List.Induction
import Quiche.Packet

namespace Quiche.PktNumWindow

variable {self : PktNumWindow} {old numbers : List Nat} {seq other : Nat}

def largest (numbers : List Nat) : Nat := numbers.foldr max 0

theorem le_largest (member : seq ∈ numbers) : seq ≤ largest numbers := by
  induction numbers with
  | nil => cases member
  | cons number rest ih =>
    rw [largest, List.foldr_cons]
    rcases List.mem_cons.mp member with rfl | later
    · exact Nat.le_max_left _ _
    · exact Nat.le_trans (ih later) (Nat.le_max_right _ _)

theorem largest_append (old : List Nat) (seq : Nat) : largest (old ++ [seq]) = max (largest old) seq := by
  induction old with
  | nil => exact Nat.max_comm _ _
  | cons number rest ih =>
    simp only [largest, List.cons_append, List.foldr_cons] at ih ⊢
    rw [ih, Nat.max_assoc]

theorem largest_lt (small : ∀ seq ∈ numbers, seq < 2 ^ 62) : largest numbers < 2 ^ 62 := by
  induction numbers with
  | nil => exact Nat.two_pow_pos 62
  | cons number rest ih =>
    obtain ⟨first, others⟩ := List.forall_mem_cons.mp small
    rw [largest, List.foldr_cons]
    exact Nat.max_lt.mpr ⟨first, ih others⟩

def inserted (numbers : List Nat) : PktNumWindow := numbers.foldl (fun window seq => window.insert seq) default

theorem inserted_append (old : List Nat) (seq : Nat) : inserted (old ++ [seq]) = (inserted old).insert seq := by
  rw [inserted, List.foldl_append]
  rfl

/-- The window contains the numbers that were inserted, and all below the last 128. -/
def Exact (self : PktNumWindow) (numbers : List Nat) : Prop :=
  ∀ seq, self.contains seq = true ↔ seq ∈ numbers ∨ seq < largest numbers - 127

/-- The jump ahead to `seq` is below 2^32, or the shift by its low 32 bits keeps no old number but in the place of
`seq`. -/
def Spares (old : List Nat) (seq : Nat) : Prop :=
  let upper := max (largest old) 127
  upper < seq → seq - upper < 2 ^ 32 ∨
    ∀ number ∈ old, upper - number + (seq - upper) % 2 ^ 32 = 0 ∨ 128 ≤ upper - number + (seq - upper) % 2 ^ 32

instance (old : List Nat) (seq : Nat) : Decidable (Spares old seq) := inferInstanceAs (Decidable (_ → _ ∨ _))

/-- The window begins 127 below the largest number. -/
structure Tracks (window : PktNumWindow) (old : List Nat) : Prop where
  lower : window.lower = largest old - 127
  small : ∀ seq ∈ old, seq < 2 ^ 62

theorem Tracks.bounded (tracks : self.Tracks old) : self.lower < 2 ^ 62 := by
  rw [tracks.lower]
  exact Nat.lt_of_le_of_lt (Nat.sub_le _ _) (largest_lt tracks.small)

theorem Tracks.upper (tracks : self.Tracks old) : self.upper = max (largest old) 127 := by
  have lower := tracks.lower
  rw [upper_eq tracks.bounded]
  omega

theorem Tracks.le_upper (tracks : self.Tracks old) (member : seq ∈ old) : seq ≤ self.upper := by
  have bound := le_largest member
  rw [tracks.upper]
  omega

theorem insert_ahead (reached : ¬ seq < self.lower) (ahead : self.upper < seq) : self.insert seq =
      { lower := self.lower + (seq - self.upper)
        window := shifted self.window (seq - self.upper) |||
          1#128 <<< (upper ⟨self.lower + (seq - self.upper), shifted self.window (seq - self.upper)⟩ - seq) } := by
  simp only [insert]
  rw [if_neg reached, if_pos ahead]

theorem insert_within (reached : ¬ seq < self.lower) (within : ¬ self.upper < seq) :
    self.insert seq = { self with window := self.window ||| 1#128 <<< (self.upper - seq) } := by
  simp only [insert]
  rw [if_neg reached, if_neg within]

theorem Tracks.insert (tracks : self.Tracks old) (small : seq < 2 ^ 62) : (self.insert seq).Tracks (old ++ [seq]) := by
  have top := tracks.upper
  have bottom := upper_eq tracks.bounded
  have lower := tracks.lower
  have smalls : ∀ other ∈ old ++ [seq], other < 2 ^ 62 := by
    intro other member
    rcases List.mem_append.mp member with before | last
    · exact tracks.small other before
    · exact List.mem_singleton.mp last ▸ small
  refine ⟨?_, smalls⟩
  rw [largest_append]
  by_cases behind : seq < self.lower
  · have same : self.insert seq = self := by
      simp only [PktNumWindow.insert]
      rw [if_pos behind]
    rw [same]
    omega
  · by_cases ahead : self.upper < seq
    · rw [insert_ahead behind ahead]
      show self.lower + (seq - self.upper) = _
      omega
    · rw [insert_within behind ahead]
      show self.lower = _
      omega

theorem Exact.bit (exact_ : self.Exact old) (tracks : self.Tracks old) (lower : self.lower ≤ seq)
    (upper : seq ≤ self.upper) : self.window.getLsbD (self.upper - seq) = true ↔ seq ∈ old := by
  have seen := exact_ seq
  rw [contains_iff tracks.bounded] at seen
  have kept : ¬ seq < self.lower := Nat.not_lt.mpr lower
  rw [← tracks.lower, or_iff_right kept, or_iff_left kept] at seen
  exact ⟨fun bit => seen.mp ⟨upper, bit⟩, fun member => (seen.mpr member).2⟩

theorem Exact.insert_within (exact_ : self.Exact old) (tracks : self.Tracks old) (upper : seq ≤ self.upper) :
    (self.insert seq).Exact (old ++ [seq]) := by
  have top := tracks.upper
  have lower := tracks.lower
  have reach : largest (old ++ [seq]) - 127 = largest old - 127 := by
    rw [largest_append]
    omega
  intro other
  rw [reach, List.mem_append, List.mem_singleton]
  by_cases behind : seq < self.lower
  · simp only [PktNumWindow.insert]
    rw [if_pos behind, exact_ other]
    constructor
    · rintro (member | below)
      · exact .inl (.inl member)
      · exact .inr below
    · rintro ((member | rfl) | below)
      · exact .inl member
      · exact .inr (lower ▸ behind)
      · exact .inr below
  · rw [PktNumWindow.insert_within behind (Nat.not_lt.mpr upper),
      contains_masked tracks.bounded (Nat.not_lt.mp behind) upper, exact_ other, or_right_comm]

theorem shifted_bit {window : BitVec 128} {diff place : Nat} (inside : place < 128) :
    (shifted window diff).getLsbD place = true ↔
      diff % 2 ^ 32 ≤ place ∧ window.getLsbD (place - diff % 2 ^ 32) = true := by
  rw [shifted]
  by_cases near : diff % 2 ^ 32 < 128
  · rw [if_pos near, BitVec.getLsbD_shiftLeft]
    simp [inside]
  · rw [if_neg near]
    constructor
    · intro bit
      simp at bit
    · intro bit
      omega

theorem contains_ahead (tracks : self.Tracks old) (small : seq < 2 ^ 62) (ahead : self.upper < seq) :
    (self.insert seq).contains other = true ↔ other < seq - 127 ∨ other ≤ seq ∧ (other = seq ∨
        (seq - self.upper) % 2 ^ 32 ≤ seq - other ∧
          self.window.getLsbD (seq - other - (seq - self.upper) % 2 ^ 32) = true) := by
  have top := upper_eq tracks.bounded
  have reached : ¬ seq < self.lower := by omega
  let moved : PktNumWindow := ⟨self.lower + (seq - self.upper), shifted self.window (seq - self.upper)⟩
  have lower : moved.lower = seq - 127 := by
    show self.lower + (seq - self.upper) = _
    omega
  have within : moved.lower < 2 ^ 62 := by omega
  have movedTop : moved.upper = seq := by
    rw [upper_eq within]
    omega
  rw [insert_ahead reached ahead]
  show contains other { moved with window := moved.window ||| 1#128 <<< (moved.upper - seq) } = true ↔ _
  rw [contains_masked within (by omega) (by omega), contains_iff within, movedTop, lower]
  show (_ ∨ _ ∧ (shifted self.window (seq - self.upper)).getLsbD (seq - other) = true) ∨ _ ↔ _
  by_cases below : other < seq - 127
  · exact iff_of_true (.inl (.inl below)) (.inl below)
  · rw [shifted_bit (by omega)]
    constructor
    · rintro ((impossible | ⟨under, bit⟩) | rfl)
      · exact absurd impossible below
      · exact .inr ⟨under, .inr bit⟩
      · exact .inr ⟨Nat.le_refl _, .inl rfl⟩
    · rintro (impossible | ⟨under, rfl | bit⟩)
      · exact absurd impossible below
      · exact .inr rfl
      · exact .inl (.inr ⟨under, bit⟩)

section

variable (exact_ : self.Exact old) (tracks : self.Tracks old) (small : seq < 2 ^ 62)

include exact_ tracks small

theorem Exact.insert_ahead
    (ahead : self.upper < seq) (spares : Spares old seq) : (self.insert seq).Exact (old ++ [seq]) := by
  have top := tracks.upper
  have bottom := upper_eq tracks.bounded
  have reach : largest (old ++ [seq]) = seq := by
    rw [largest_append]
    omega
  intro other
  rw [contains_ahead tracks small ahead, reach, List.mem_append, List.mem_singleton]
  by_cases below : other < seq - 127
  · exact iff_of_true (.inl below) (.inr below)
  rw [or_iff_right below, or_iff_left below]
  by_cases same : other = seq
  · exact iff_of_true ⟨Nat.le_of_eq same, .inl same⟩ (.inr same)
  rw [or_iff_right same, or_iff_left same]
  constructor
  · rintro ⟨under, carried, bit⟩
    simp only [Spares] at spares
    rw [← top] at spares
    rcases spares ahead with near | gone
    · rw [Nat.mod_eq_of_lt near] at carried bit
      have place : seq - other - (seq - self.upper) = self.upper - other := by omega
      rw [place] at bit
      exact (exact_.bit tracks (by omega) (by omega)).mp bit
    · let number := self.upper - (seq - other - (seq - self.upper) % 2 ^ 32)
      have place : self.upper - number = seq - other - (seq - self.upper) % 2 ^ 32 := by omega
      rw [← place] at bit
      have member := (exact_.bit tracks (by omega) (Nat.sub_le _ _)).mp bit
      have apart := gone number member
      omega
  · intro member
    have bound := tracks.le_upper member
    have near : seq - self.upper < 2 ^ 32 := by omega
    have place : seq - other - (seq - self.upper) = self.upper - other := by omega
    rw [Nat.mod_eq_of_lt near, place]
    exact ⟨by omega, by omega, (exact_.bit tracks (by omega) bound).mpr member⟩

theorem Exact.spares (later : (self.insert seq).Exact (old ++ [seq])) : Spares old seq := by
  have top := tracks.upper
  have bottom := upper_eq tracks.bounded
  simp only [Spares]
  rw [← top]
  intro ahead
  by_cases near : seq - self.upper < 2 ^ 32
  · exact .inl near
  refine .inr fun number member => ?_
  by_contra apart
  have bound := tracks.le_upper member
  let place := self.upper - number + (seq - self.upper) % 2 ^ 32
  have bit := (exact_.bit tracks (by omega) bound).mpr member
  have back : seq - (seq - place) - (seq - self.upper) % 2 ^ 32 = self.upper - number := by omega
  have seen : (self.insert seq).contains (seq - place) = true := by
    rw [contains_ahead tracks small ahead, back]
    exact .inr ⟨Nat.sub_le _ _, .inr ⟨by omega, bit⟩⟩
  have reach : largest (old ++ [seq]) = seq := by
    rw [largest_append]
    omega
  have known := (later (seq - place)).mp seen
  rw [reach, List.mem_append, List.mem_singleton] at known
  rcases known with (before | last) | below
  · have under := tracks.le_upper before
    omega
  · omega
  · omega

theorem Exact.insert_iff : (self.insert seq).Exact (old ++ [seq]) ↔ Spares old seq := by
  constructor
  · exact exact_.spares tracks small
  · intro spares
    by_cases ahead : self.upper < seq
    · exact exact_.insert_ahead tracks small ahead spares
    · exact exact_.insert_within tracks (Nat.not_lt.mp ahead)

end

theorem inserted_tracks (numbers : List Nat) (small : ∀ seq ∈ numbers, seq < 2 ^ 62) :
    (inserted numbers).Tracks numbers := by
  induction numbers using List.reverseRecOn with
  | nil => exact ⟨rfl, small⟩
  | append_singleton old seq ih =>
    rw [inserted_append]
    have tracks := ih fun other member => small other (List.mem_append_left _ member)
    exact tracks.insert (small seq (List.mem_append_right _ (List.mem_singleton_self _)))

theorem default_exact : default.Exact [] := by
  intro seq
  rw [contains_iff (Nat.two_pow_pos 62)]
  simp [default, largest]

/-- The window is exact after every insertion if and only if no jump leaves a bit of an older number
behind. -/
theorem inserted_exact (numbers : List Nat) (small : ∀ seq ∈ numbers, seq < 2 ^ 62) :
    (∀ count, (inserted (numbers.take count)).Exact (numbers.take count)) ↔
      ∀ place, (inside : place < numbers.length) → Spares (numbers.take place) numbers[place] := by
  have tracks (count : Nat) : (inserted (numbers.take count)).Tracks (numbers.take count) :=
    inserted_tracks _ fun seq member => small seq (List.mem_of_mem_take member)
  have step (place : Nat) (inside : place < numbers.length)
      (exact_ : (inserted (numbers.take place)).Exact (numbers.take place)) :
      (inserted (numbers.take (place + 1))).Exact (numbers.take (place + 1)) ↔
        Spares (numbers.take place) numbers[place] := by
    rw [← List.take_append_getElem inside, inserted_append]
    exact exact_.insert_iff (tracks place) (small _ (List.getElem_mem inside))
  constructor
  · intro every place inside
    exact (step place inside (every place)).mp (every (place + 1))
  · intro spared count
    induction count with
    | zero => exact default_exact
    | succ place ih =>
      by_cases inside : place < numbers.length
      · exact (step place inside ih).mpr (spared place inside)
      · have whole := Nat.not_lt.mp inside
        rw [List.take_of_length_le whole] at ih
        rw [List.take_of_length_le (Nat.le_succ_of_le whole)]
        exact ih

/-- A jump within the window and one beyond it. -/
theorem inserted_exact_jump : (inserted [5, 130, 4096]).Exact [5, 130, 4096] :=
  (inserted_exact [5, 130, 4096] (by decide)).mpr (by decide) 3

/-- After a jump by 2^32 the bit of packet 0 stands where that of packet 2^32 is expected. -/
theorem jump_seen : ∃ numbers : List Nat, (∀ seq ∈ numbers, seq < 2 ^ 62) ∧
    ∃ seq, (inserted numbers).contains seq = true ∧ ¬ (seq ∈ numbers ∨ seq < largest numbers - 127) :=
  ⟨[0, 127 + 2 ^ 32], by decide, 2 ^ 32, by decide, by decide⟩

end Quiche.PktNumWindow
