import HttpSocksProxy.Foundation.InetText

/-! `inet_ntoa` of `dns.ipv4` and `dns.ipv6`, by which the records of an answer get
their text, against `inet_ntop`. -/
namespace HttpSocksProxy.Dns
open InetText

/-- `dns.ipv4.inet_ntoa`. -/
def ipv4Ntoa (address : List UInt8) : Option (List Char) :=
  match address with
  | [a, b, c, d] =>
    some (numeral 10 a.toNat ++ ['.'] ++ numeral 10 b.toNat ++ ['.'] ++ numeral 10 c.toNat ++ ['.'] ++
      numeral 10 d.toNat)
  | _ => none

/-- `"{:02x}"`. -/
def hexPair (b : UInt8) : List Char := [digitChar (b.toNat / 16), digitChar (b.toNat % 16)]

def hexlify (address : List UInt8) : List Char := address.flatMap hexPair

/-- `_leading_zero`: at least one digit stays. -/
def stripZeros (chunk : List Char) : List Char :=
  match chunk.dropWhile (· = '0') with
  | [] => ['0']
  | digits => digits

/-- The hex digits four at a time. -/
def hexChunks : List Char → List (List Char)
  | a :: b :: c :: d :: rest => stripZeros [a, b, c, d] :: hexChunks rest
  | _ => []

/-- The scan for zero chunks; `run` is `start` while the last chunk was zero. -/
structure ZeroScan where
  bestStart : Nat
  bestLen : Nat
  run : Option Nat
  deriving DecidableEq, Repr

namespace ZeroScan

/-- A run ends. -/
def close (s : ZeroScan) (stop : Nat) : ZeroScan :=
  match s.run with
  | some start =>
    if s.bestLen < stop - start then ⟨start, stop - start, none⟩ else { s with run := none }
  | none => s

def turn (chunks : List (List Char)) (s : ZeroScan) (i : Nat) : ZeroScan :=
  if chunks.getD i [] ≠ ['0'] then s.close i
  else match s.run with
    | none => { s with run := some i }
    | some _ => s

end ZeroScan

def zeroScan (chunks : List (List Char)) : ZeroScan :=
  ((List.range 8).foldl (ZeroScan.turn chunks) ⟨0, 0, none⟩).close 8

/-- `dns.ipv6.inet_ntoa`. -/
def ipv6Ntoa (address : List UInt8) : Option (List Char) :=
  if address.length ≠ 16 then none
  else
    let chunks := hexChunks (hexlify address)
    let best := zeroScan chunks
    if 1 < best.bestLen then
      if best.bestStart = 0 ∧
          (best.bestLen = 6 ∨ best.bestLen = 5 ∧ chunks[5]? = some ['f', 'f', 'f', 'f']) then
        let front := if best.bestLen = 6 then [':', ':'] else [':', ':', 'f', 'f', 'f', 'f', ':']
        (ipv4Ntoa (address.drop 12)).map (front ++ ·)
      else some ([':'].intercalate (chunks.take best.bestStart) ++ [':', ':'] ++
        [':'].intercalate (chunks.drop (best.bestStart + best.bestLen)))
    else some ([':'].intercalate chunks)

theorem ipv4Ntoa_eq (size : address.length = 4) : ipv4Ntoa address = some (ntop4 address) := by
  match address, size with
  | [a, b, c, d], _ =>
    rw [ipv4Ntoa, ntop4]
    simp [List.intercalate, List.intersperse]

section Chunks

theorem numeral_zero : numeral 16 n = ['0'] ↔ n = 0 := by
  constructor
  · intro zero
    have value : numeralValue 16 (numeral 16 n) = some n := numeralValue_numeral (.inr rfl) n
    rw [zero] at value
    exact (Option.some.inj value).symm
  · rintro rfl
    rfl

/-- Digits without their leading zeros are a numeral. -/
theorem stripZeros_digits (digits : List Nat) (small : ∀ d ∈ digits, d < 16) :
    stripZeros (digits.map digitChar) = numeral 16 (Nat.ofDigits 16 digits.reverse) := by
  induction digits with
  | nil => rfl
  | cons d rest ih =>
    have later := ih fun d member => small d (List.mem_cons_of_mem _ member)
    have first := small d List.mem_cons_self
    by_cases zero : d = 0
    · subst zero
      have dropped : stripZeros (List.map digitChar (0 :: rest)) = stripZeros (rest.map digitChar) := rfl
      rw [dropped, later, List.reverse_cons, Nat.ofDigits_append]
      simp
    · have kept : stripZeros (List.map digitChar (d :: rest)) = List.map digitChar (d :: rest) := by
        rw [stripZeros, List.map_cons, List.dropWhile_cons_of_neg (by simp [(digitChar_alnum first).2.2 zero])]
      have read : Nat.digits 16 (Nat.ofDigits 16 (d :: rest).reverse) = (d :: rest).reverse := by
        refine Nat.digits_ofDigits 16 (by decide) _ (fun l member => small l (List.mem_reverse.mp member)) ?_
        intro filled
        rwa [List.getLast_reverse]
      have positive : Nat.ofDigits 16 (d :: rest).reverse ≠ 0 := by
        intro none
        rw [none] at read
        simp at read
      rw [kept, numeral, if_neg positive, read, List.reverse_reverse]

theorem hexChunks_hexlify (even : address.length = 2 * n) :
    hexChunks (hexlify address) = (wordsOf address).map (numeral 16) := by
  induction n generalizing address with
  | zero =>
    rw [List.eq_nil_of_length_eq_zero even]
    rfl
  | succ n ih =>
    match address, even with
    | hi :: lo :: rest, even =>
      have later : rest.length = 2 * n := by
        simp only [List.length_cons] at even
        omega
      have digits : stripZeros (hexPair hi ++ hexPair lo) = numeral 16 (hi.toNat * 256 + lo.toNat) := by
        have hiSmall := hi.toNat_lt
        have loSmall := lo.toNat_lt
        have stripped := stripZeros_digits [hi.toNat / 16, hi.toNat % 16, lo.toNat / 16, lo.toNat % 16]
          (by simp; omega)
        refine stripped.trans (congrArg _ ?_)
        simp only [List.reverse_cons, List.reverse_nil, List.nil_append, List.cons_append, Nat.ofDigits_cons,
          Nat.ofDigits_nil]
        omega
      rw [wordsOf, List.map_cons, ← digits, ← ih later]
      rfl

end Chunks

section Scan
variable {words : List Nat} {s : ZeroScan}

theorem zeroRun_zero (zero : words[i]? = some 0) : zeroRun words i = zeroRun words (i + 1) + 1 := by
  obtain ⟨inside, here⟩ := List.getElem?_eq_some_iff.mp zero
  rw [zeroRun, List.drop_eq_getElem_cons inside, here]
  rfl

theorem zeroRun_none (other : words[i]? ≠ some 0) : zeroRun words i = 0 := by
  by_cases inside : i < words.length
  · have nonzero : words[i] ≠ 0 := fun zero => other (List.getElem?_eq_some_iff.mpr ⟨inside, zero⟩)
    rw [zeroRun, List.drop_eq_getElem_cons inside, List.takeWhile_cons_of_neg (by simpa using nonzero)]
    rfl
  · rw [zeroRun, List.drop_eq_nil_of_le (Nat.le_of_not_lt inside)]
    rfl

/-- A run reaches up to where it ends. -/
theorem zeroRun_until (ends : words[stop]? ≠ some 0) (before : j + n = stop)
    (zeros : ∀ k, j ≤ k → k < stop → words[k]? = some 0) : zeroRun words j = n := by
  induction n generalizing j with
  | zero =>
    obtain rfl : j = stop := before
    exact zeroRun_none ends
  | succ n ih =>
    rw [zeroRun_zero (zeros j (Nat.le_refl _) (by omega)),
      ih (by omega) fun k later inside => zeros k (by omega) inside]

namespace ZeroScan

/-- What the scan knows before it looks at chunk `i`: the first of the longest runs
that begin before the run it is in. -/
structure Inv (words : List Nat) (s : ZeroScan) (i : Nat) : Prop where
  running : ∀ start, s.run = some start → start < i ∧ ∀ k, start ≤ k → k < i → words[k]? = some 0
  found : s.bestLen = 0 ∧ s.bestStart = 0 ∨
    0 < s.bestLen ∧ s.bestLen = zeroRun words s.bestStart ∧ s.bestStart < s.run.getD i
  longest : ∀ j < s.run.getD i, zeroRun words j ≤ s.bestLen ∧
    (zeroRun words j = s.bestLen → s.bestLen = 0 ∨ s.bestStart ≤ j)

theorem inv_init : Inv words ⟨0, 0, none⟩ 0 where
  running := nofun
  found := .inl ⟨rfl, rfl⟩
  longest := nofun

theorem inv_close (inv : Inv words s i) (ends : words[i]? ≠ some 0) : Inv words (s.close i) (i + 1) := by
  have last := zeroRun_none ends
  cases open_ : s.run with
  | none =>
    have same : s.close i = s := by rw [close, open_]
    have found := inv.found
    have longest := inv.longest
    rw [open_, Option.getD_none] at found longest
    rw [same]
    refine ⟨fun start run => absurd (open_.symm.trans run) nofun, ?_, fun j before => ?_⟩
    · rw [open_, Option.getD_none]
      omega
    · rw [open_, Option.getD_none] at before
      rcases Nat.lt_succ_iff_lt_or_eq.mp before with earlier | rfl
      · exact longest j earlier
      · omega
  | some start =>
    obtain ⟨inside, zeros⟩ := inv.running start open_
    have found := inv.found
    have longest := inv.longest
    rw [open_, Option.getD_some] at found longest
    have run (j : Nat) (after : start ≤ j) (before : j < i) : zeroRun words j = i - j :=
      zeroRun_until ends (by omega) fun k later => zeros k (after.trans later)
    have closed : s.close i =
        if s.bestLen < i - start then ⟨start, i - start, none⟩ else { s with run := none } := by
      rw [close, open_]
    rw [closed]
    -- a run counts from wherever one enters it, so its start is the longest way in
    have cases (j : Nat) (before : j < i + 1) :
        j < start ∨ start ≤ j ∧ zeroRun words j = i - j ∧ j < i ∨ j = i ∧ zeroRun words j = 0 := by
      rcases Nat.lt_or_ge j start with earlier | after
      · exact .inl earlier
      · rcases Nat.lt_succ_iff_lt_or_eq.mp before with inner | rfl
        · exact .inr (.inl ⟨after, run j after inner, inner⟩)
        · exact .inr (.inr ⟨rfl, last⟩)
    split
    case isTrue longer =>
      have length := run start (Nat.le_refl _) inside
      refine ⟨nofun, .inr ⟨Nat.sub_pos_of_lt inside, length.symm, Nat.lt_succ_of_lt inside⟩,
        fun j before => ?_⟩
      rcases cases j before with earlier | ⟨after, length, inner⟩ | ⟨rfl, length⟩
      · have := longest j earlier
        simp only
        omega
      · simp only
        omega
      · simp only
        omega
    case isFalse shorter =>
      refine ⟨nofun, ?_, fun j before => ?_⟩
      · simp only [Option.getD_none]
        omega
      · rcases cases j before with earlier | ⟨after, length, inner⟩ | ⟨rfl, length⟩
        · exact longest j earlier
        · simp only
          omega
        · simp only
          omega

theorem inv_zero (inv : Inv words s i) (zero : words[i]? = some 0) :
    Inv words (match s.run with | none => { s with run := some i } | some _ => s) (i + 1) := by
  have found := inv.found
  have longest := inv.longest
  cases open_ : s.run with
  | none =>
    rw [open_, Option.getD_none] at found longest
    refine ⟨fun start begun => ?_, found, longest⟩
    obtain rfl := Option.some.inj begun
    refine ⟨Nat.lt_succ_self _, fun k after before => ?_⟩
    obtain rfl : k = i := by omega
    exact zero
  | some start =>
    rw [open_, Option.getD_some] at found longest
    refine ⟨fun start' begun => ?_, by rwa [open_], by rwa [open_]⟩
    obtain ⟨inside, zeros⟩ := inv.running start' begun
    refine ⟨Nat.lt_succ_of_lt inside, fun k after before => ?_⟩
    rcases Nat.lt_succ_iff_lt_or_eq.mp before with earlier | rfl
    · exact zeros k after earlier
    · exact zero

theorem inv_scan (words : List Nat) (n : Nat) (inside : n ≤ words.length) :
    Inv words ((List.range n).foldl (turn (words.map (numeral 16))) ⟨0, 0, none⟩) n := by
  induction n with
  | zero => exact inv_init
  | succ n ih =>
    rw [List.range_succ, List.foldl_append, List.foldl_cons, List.foldl_nil]
    have here : words[n]? = some words[n] := List.getElem?_eq_getElem inside
    have chunk : (words.map (numeral 16)).getD n [] = numeral 16 words[n] := by
      rw [List.getD_eq_getElem?_getD, List.getElem?_map, here]
      rfl
    have inv := ih (Nat.le_of_succ_le inside)
    rw [turn, chunk]
    split
    case isTrue nonzero =>
      refine inv_close inv fun zero => nonzero (numeral_zero.mpr ?_)
      exact Option.some.inj (here.symm.trans zero)
    case isFalse zero =>
      exact inv_zero inv (here.trans (congrArg some (numeral_zero.mp (not_not.mp zero))))

end ZeroScan

/-- The first of the longest runs that begin below a bound. -/
theorem bestRun_first (words : List Nat) (n : Nat) :
    let best := (List.range n).foldl (fun best i => if zeroRun words best < zeroRun words i then i else best) 0
    (∀ j < n, zeroRun words j ≤ zeroRun words best) ∧ ∀ j < best, zeroRun words j < zeroRun words best := by
  induction n with
  | zero => exact ⟨nofun, nofun⟩
  | succ n ih =>
    simp only [List.range_succ, List.foldl_append, List.foldl_cons, List.foldl_nil] at ih ⊢
    obtain ⟨longest, first⟩ := ih
    generalize (List.range n).foldl
      (fun best i => if zeroRun words best < zeroRun words i then i else best) 0 = best at longest first ⊢
    split
    case isTrue longer =>
      refine ⟨fun j before => ?_, fun j before => Nat.lt_of_le_of_lt (longest j before) longer⟩
      rcases Nat.lt_succ_iff_lt_or_eq.mp before with earlier | rfl
      · exact (longest j earlier).trans longer.le
      · exact Nat.le_refl _
    case isFalse shorter =>
      refine ⟨fun j before => ?_, first⟩
      rcases Nat.lt_succ_iff_lt_or_eq.mp before with earlier | rfl
      · exact longest j earlier
      · exact Nat.le_of_not_lt shorter

theorem zeroScan_best (size : words.length = 8) :
    (zeroScan (words.map (numeral 16))).bestStart = bestRun words ∧
      (zeroScan (words.map (numeral 16))).bestLen = zeroRun words (bestRun words) := by
  have ends : words[8]? ≠ some 0 := by
    rw [List.getElem?_eq_none size.le]
    nofun
  have inv := ZeroScan.inv_close (ZeroScan.inv_scan words 8 size.ge) ends
  have stopped : (zeroScan (words.map (numeral 16))).run = none := by
    rw [zeroScan, ZeroScan.close]
    split
    · split <;> rfl
    · assumption
  change ZeroScan.Inv words (zeroScan (words.map (numeral 16))) 9 at inv
  have found := inv.found
  have longest := inv.longest
  rw [stopped, Option.getD_none] at found longest
  obtain ⟨most, first⟩ := bestRun_first words 8
  have begins (j : Nat) (run : 0 < zeroRun words j) : j < 8 := by
    by_contra beyond
    rw [zeroRun_none (by rw [List.getElem?_eq_none (by omega)]; nofun)] at run
    exact absurd run (Nat.lt_irrefl 0)
  have most : ∀ j < 8, zeroRun words j ≤ zeroRun words (bestRun words) := most
  have first : ∀ j < bestRun words, zeroRun words j < zeroRun words (bestRun words) := first
  generalize bestRun words = best at most first ⊢
  generalize zeroScan (words.map (numeral 16)) = scan at found longest ⊢
  have bound := begins best
  rcases found with ⟨short, start⟩ | ⟨positive, length, inside⟩
  · have none : zeroRun words best = 0 := by
      by_contra some
      have := (longest best (by omega)).1
      omega
    have here : best = 0 := by
      by_contra later
      have := first 0 (by omega)
      omega
    omega
  · have reached := begins scan.bestStart
    rcases Nat.lt_trichotomy best scan.bestStart with earlier | same | later
    · have := longest best (by omega)
      have := most scan.bestStart
      omega
    · exact ⟨same.symm, by rw [length, same]⟩
    · have := first scan.bestStart later
      have := (longest best (by omega)).1
      omega

end Scan

theorem intercalate_append {x : List A} {front back : List (List A)} (filled : front ≠ []) (rest : back ≠ []) :
    x.intercalate (front ++ back) = x.intercalate front ++ x ++ x.intercalate back := by
  induction front with
  | nil => contradiction
  | cons g front ih =>
    by_cases last : front = []
    · subst last
      rw [List.singleton_append, List.intercalate_cons_of_ne_nil rest, List.intercalate_singleton]
    · rw [List.cons_append, List.intercalate_cons_of_ne_nil (by simp [last]), ih last,
        List.intercalate_cons_of_ne_nil last]
      simp only [List.append_assoc]

theorem intercalate_orEmpty (groups : List (List Char)) :
    [':'].intercalate (orEmpty groups) = [':'].intercalate groups := by
  rw [orEmpty]
  split
  case isTrue none =>
    subst none
    rfl
  case isFalse => rfl

/-- An empty group between two lists of groups is a double colon. -/
theorem intercalate_compressed (left right : List (List Char)) :
    [':'].intercalate (orEmpty left ++ [[]] ++ orEmpty right) =
      [':'].intercalate left ++ [':', ':'] ++ [':'].intercalate right := by
  have filled (groups : List (List Char)) : orEmpty groups ≠ [] := by
    rw [orEmpty]
    split
    · exact List.cons_ne_nil _ _
    · assumption
  rw [intercalate_append (by simp) (filled right), intercalate_append (filled left) (by simp), intercalate_orEmpty,
    intercalate_orEmpty]
  simp

theorem numeral_ffff : numeral 16 n = ['f', 'f', 'f', 'f'] ↔ n = 0xffff := by
  have all : numeralValue 16 ['f', 'f', 'f', 'f'] = some 0xffff := by decide
  constructor
  · intro same
    have value : numeralValue 16 (numeral 16 n) = some n := numeralValue_numeral (.inr rfl) n
    rw [same, all] at value
    exact (Option.some.inj value).symm
  · rintro rfl
    decide +kernel

/-- The last four bytes of an address are its last two words. -/
theorem bytesOf_last (size : address.length = 16) : bytesOf ((wordsOf address).drop 6) = address.drop 12 := by
  obtain ⟨bytes, eight⟩ := bytesOf_wordsOf (n := 8) size
  have parts := congrArg (List.drop 12) bytes
  rwa [← List.take_append_drop 6 (wordsOf address), bytesOf_append,
    List.drop_left' (by rw [length_bytesOf, List.length_take, eight]; rfl)] at parts

/-- `dns.ipv6.inet_ntoa` writes every address like `inet_ntop`. -/
theorem ipv6Ntoa_eq (size : address.length = 16) : ipv6Ntoa address = some (ntop6 address) := by
  obtain ⟨bytes, eight⟩ := bytesOf_wordsOf (n := 8) size
  have chunks := hexChunks_hexlify (n := 8) size
  obtain ⟨start, length⟩ := zeroScan_best eight
  have last : ipv4Ntoa (address.drop 12) = some (ntop4 (address.drop 12)) :=
    ipv4Ntoa_eq (by rw [List.length_drop, size])
  rw [ipv6Ntoa, if_neg (not_not.mpr size)]
  simp only [chunks, start, length, ntop6, wordsText]
  by_cases short : zeroRun (wordsOf address) (bestRun (wordsOf address)) < 2
  case pos =>
    rw [if_pos short, if_neg (by omega)]
  case neg =>
    rw [if_neg short, if_pos (by omega), intercalate_compressed, tailGroups]
    have mapped : ((wordsOf address).map (numeral 16))[5]? = some ['f', 'f', 'f', 'f'] ↔
        (wordsOf address)[5]? = some 0xffff := by
      rw [List.getElem?_map, Option.map_eq_some_iff]
      constructor
      · rintro ⟨w, here, same⟩
        rw [here, numeral_ffff.mp same]
      · intro here
        exact ⟨_, here, numeral_ffff.mpr rfl⟩
    simp only [mapped, bytesOf_last size]
    split
    case isFalse => rw [List.map_take, List.map_drop]
    case isTrue dotted =>
      obtain ⟨none, six | ⟨five, mark⟩⟩ := dotted
      · rw [last]
        rw [none] at six ⊢
        simp [six]
      · have marked : ((wordsOf address).drop 5).take 1 = [0xffff] := by
          obtain ⟨inside, here⟩ := List.getElem?_eq_some_iff.mp mark
          rw [List.drop_eq_getElem_cons inside, here]
          rfl
        rw [last]
        rw [none] at five ⊢
        simp only [five, Option.map_some, if_neg (show ¬ 5 = 6 by decide), marked, List.take_zero, List.map_nil,
          List.intercalate_nil, List.map_cons, numeral_ffff.mpr]
        rw [List.singleton_append, List.intercalate_cons_cons, List.intercalate_singleton]
        rfl

end HttpSocksProxy.Dns
