import Ident160.Inspector

/-!
Seeded streams of identifiers. A reader of the word stream stands at a position: the words left of
its block are the next ones of the stream, up to the end of the block. Taking a word moves it on by
one place and taking an identifier by five, wherever a block ends, so the identifier at a position
of the stream depends on the seed alone and not on who asks for it, or for how many.
-/

namespace Ident160

open ChaCha (Key wordAt)

/-- The words of a block are those of the stream from the start of the block on. -/
theorem ChaCha.toList_block (key : Key) (blocks : Nat) :
    (ChaCha.block key (UInt64.ofNat blocks)).toList =
      (List.range' (16 * blocks) 16).map (wordAt key) := by
  apply List.ext_getElem
  · simp
  · intro i hi _
    have hplace : i < 16 := by simpa using hi
    have hdiv : (16 * blocks + i) / 16 = blocks := by omega
    have hmod : (16 * blocks + i) % 16 = i := by omega
    simp [wordAt, hdiv, hmod]

/-- The identifier that the five words from a position of the stream on make. -/
def ChaCha.identFrom (key : Key) (position : Nat) : Ident :=
  ⟨#v[wordAt key position, wordAt key (position + 1), wordAt key (position + 2),
    wordAt key (position + 3), wordAt key (position + 4)]⟩

open ChaCha (identFrom)

namespace Keystream

/-- The reader stands behind `position` words of the stream of `key`. What it has left is the rest
of a block, and its counter is that of the block behind. -/
structure Stands (k : Keystream) (key : Key) (position : Nat) : Prop where
  key_eq : k.key = key
  pending_eq : k.pending = (List.range' position k.pending.length).map (wordAt key)
  at_block : ∃ blocks, position + k.pending.length = 16 * blocks ∧ k.counter = UInt64.ofNat blocks

theorem stands_ofSeed (seed : UInt64) : (ofSeed seed).Stands (ChaCha.keyOfSeed seed) 0 :=
  ⟨rfl, rfl, 0, rfl, rfl⟩

variable {k : Keystream} {key : Key} {position : Nat}

theorem next_pending {word : UInt32} {words : List UInt32} (h : k.pending = word :: words) :
    k.next = (word, ⟨k.key, k.counter, words⟩) := by
  rw [next, h]

/-- Behind the last word of a block stands the next block. -/
theorem next_block {word : UInt32} {words : List UInt32} (h : k.pending = [])
    (hblock : (ChaCha.block k.key k.counter).toList = word :: words) :
    k.next = (word, ⟨k.key, k.counter + 1, words⟩) := by
  have hzero : 0 < (ChaCha.block k.key k.counter).toList.length := by simp
  have hhead := List.getElem_of_eq hblock hzero
  rw [Vector.getElem_toList, List.getElem_cons_zero] at hhead
  rw [next, h]
  dsimp only
  rw [hblock, hhead, List.tail_cons]

/-- The next word is the one at the position, and the reader moves on by one. -/
theorem Stands.next (h : k.Stands key position) :
    k.next.1 = wordAt key position ∧ k.next.2.Stands key (position + 1) := by
  obtain ⟨rfl, hpending, blocks, hend, hcounter⟩ := h
  cases hwords : k.pending with
  | cons word words =>
    rw [hwords, List.length_cons, List.range'_succ, List.map_cons, List.cons.injEq] at hpending
    rw [hwords, List.length_cons, ← Nat.add_assoc, Nat.add_right_comm] at hend
    rw [next_pending hwords]
    exact ⟨hpending.1, rfl, hpending.2, blocks, hend, hcounter⟩
  | nil =>
    have hposition : position = 16 * blocks := by simpa [hwords] using hend
    have hblock : (ChaCha.block k.key k.counter).toList =
        wordAt k.key position :: (List.range' (position + 1) 15).map (wordAt k.key) := by
      rw [hcounter, ChaCha.toList_block, hposition, List.range'_succ, List.map_cons]
    have hnext : k.counter + 1 = UInt64.ofNat (blocks + 1) := by
      rw [hcounter, UInt64.ofNat_add]
      rfl
    rw [next_block hwords hblock]
    refine ⟨rfl, rfl, by simp, blocks + 1, ?_, hnext⟩
    rw [List.length_map, List.length_range']
    omega

/-- Five words are taken for an identifier, also where a block ends among them. -/
theorem Stands.nextIdent (h : k.Stands key position) :
    k.nextIdent.1 = identFrom key position ∧ k.nextIdent.2.Stands key (position + 5) := by
  obtain ⟨h₄, h⟩ := h.next
  obtain ⟨h₃, h⟩ := h.next
  obtain ⟨h₂, h⟩ := h.next
  obtain ⟨h₁, h⟩ := h.next
  obtain ⟨h₀, h⟩ := h.next
  refine ⟨?_, h⟩
  simp only [Keystream.nextIdent, identFrom, h₄, h₃, h₂, h₁, h₀]

/-- Identifiers are taken from every fifth word on. -/
theorem Stands.idents (h : k.Stands key position) (n : Nat) :
    k.idents n = (List.range n).map fun i => identFrom key (position + 5 * i) := by
  induction n generalizing k position with
  | zero => rfl
  | succ n ih =>
    obtain ⟨hfirst, hrest⟩ := h.nextIdent
    have hshift : ∀ i, position + 5 + 5 * i = position + 5 * (i + 1) := by omega
    simp only [Keystream.idents, hfirst, ih hrest, hshift, List.range_succ_eq_map, List.map_cons,
      List.map_map, Nat.mul_zero, Nat.add_zero]
    rfl

theorem Stands.skip (h : k.Stands key position) (n : Nat) :
    (k.skip n).Stands key (position + 5 * n) := by
  induction n generalizing k position with
  | zero => exact h
  | succ n ih =>
    have hshift : position + 5 + 5 * n = position + 5 * (n + 1) := by omega
    exact hshift ▸ ih h.nextIdent.2

theorem Stands.identAt (h : k.Stands key position) (n : Nat) :
    k.identAt n = identFrom key (position + 5 * n) :=
  (h.skip n).nextIdent.1

end Keystream

namespace Settings

open ChaCha (keyOfSeed)

theorem keystream_of_seed {settings : Settings} {asked : Option UInt64} {seed : UInt64}
    (hseed : asked.or settings.random.seed = some seed) (entropy : Key) :
    settings.keystream asked entropy = .ofSeed seed := by
  have heffective : settings.effectiveSeed asked = some seed := by
    rw [← hseed]
    cases asked <;> rfl
  rw [keystream, heffective]

section

variable {settings : Settings} {asked : Option UInt64} {seed : UInt64}
  (hseed : asked.or settings.random.seed = some seed) (entropy : Key)
include hseed

/-- A draw of many identifiers starts at the first word of the stream. -/
theorem drawMany_of_seed (n : Nat) : settings.drawMany asked entropy n =
    (List.range n).map fun i => identFrom (keyOfSeed seed) (5 * i) := by
  rw [drawMany, keystream_of_seed hseed entropy]
  simpa using (Keystream.stands_ofSeed seed).idents n

theorem drawAt_of_seed : settings.drawAt asked entropy =
    fun n => identFrom (keyOfSeed seed) (5 * n) := by
  funext n
  rw [drawAt, keystream_of_seed hseed entropy]
  simpa using (Keystream.stands_ofSeed seed).identAt n

theorem draw_of_seed : settings.draw asked entropy = identFrom (keyOfSeed seed) 0 := by
  rw [draw, keystream_of_seed hseed entropy]
  exact (Keystream.stands_ofSeed seed).nextIdent.1

end

/-- With a seed, asked for or else configured, every identifier of a listing is made of the next
five words of the seed's stream. A shorter listing is the beginning of a longer one, the endless
stream and the single draw agree with it, and all of them are the same wherever the same seed is in
force. -/
theorem seeded_draws_take_five_words_each (settings : Settings) (asked : Option UInt64)
    (entropy : Key) (seed : UInt64) (hseed : asked.or settings.random.seed = some seed) :
    (∀ count, (settings.drawMany asked entropy count).length = count) ∧
    (∀ count i, i < count → (settings.drawMany asked entropy count)[i]? = some
      ⟨#v[wordAt (keyOfSeed seed) (5 * i), wordAt (keyOfSeed seed) (5 * i + 1),
        wordAt (keyOfSeed seed) (5 * i + 2), wordAt (keyOfSeed seed) (5 * i + 3),
        wordAt (keyOfSeed seed) (5 * i + 4)]⟩) ∧
    (∀ m n, m ≤ n →
      settings.drawMany asked entropy m <+: settings.drawMany asked entropy n) ∧
    (∀ count, (List.range count).map (settings.drawAt asked entropy) =
      settings.drawMany asked entropy count) ∧
    (∀ count, (settings.drawMany asked entropy (count + 1)).head? =
      some (settings.draw asked entropy)) ∧
    ∀ (settings' : Settings) (asked' : Option UInt64) (entropy' : Key),
      asked'.or settings'.random.seed = some seed →
        settings'.drawMany asked' entropy' = settings.drawMany asked entropy ∧
        settings'.drawAt asked' entropy' = settings.drawAt asked entropy ∧
        settings'.draw asked' entropy' = settings.draw asked entropy := by
  have hmany := drawMany_of_seed hseed entropy
  have hat := drawAt_of_seed hseed entropy
  have hone := draw_of_seed hseed entropy
  refine ⟨?_, ?_, ?_, ?_, ?_, ?_⟩
  · intro count
    rw [hmany, List.length_map, List.length_range]
  · intro count i hi
    rw [hmany, List.getElem?_map, List.getElem?_range hi]
    rfl
  · intro m n hmn
    rw [hmany, hmany]
    obtain ⟨d, rfl⟩ := Nat.exists_eq_add_of_le hmn
    rw [List.range_add, List.map_append]
    exact List.prefix_append _ _
  · intro count
    rw [hmany, hat]
  · intro count
    rw [hmany, hone, List.range_succ_eq_map]
    rfl
  · intro settings' asked' entropy' hseed'
    refine ⟨funext fun count => ?_, ?_, ?_⟩
    · rw [hmany, drawMany_of_seed hseed' entropy']
    · rw [hat, drawAt_of_seed hseed' entropy']
    · rw [hone, draw_of_seed hseed' entropy']

/-- The fourth identifier of a configured seed takes the last word of the first block and four of
the next one, and it is the fourth of five, too. -/
theorem fourth_seeded_draw_straddles_blocks :
    let settings : Settings := { random := { seed := some 7 } }
    let entropy : Key := Vector.replicate 8 0
    let key := keyOfSeed 7
    (settings.drawMany none entropy 4)[3]? = some ⟨#v[wordAt key 15, wordAt key 16, wordAt key 17,
      wordAt key 18, wordAt key 19]⟩ ∧
      settings.drawMany none entropy 4 <+: settings.drawMany none entropy 5 ∧
      ({} : Settings).drawMany (some 7) entropy = settings.drawMany none entropy := by
  intro settings entropy key
  obtain ⟨-, hget, hprefix, -, -, hsame⟩ :=
    seeded_draws_take_five_words_each settings none entropy 7 rfl
  exact ⟨hget 4 3 (by decide), hprefix 4 5 (by decide), (hsame {} (some 7) entropy rfl).1⟩

end Settings

end Ident160
