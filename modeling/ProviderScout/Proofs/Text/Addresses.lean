import ProviderScout.Proofs.Text.Digits
import ProviderScout.SocketAddress

namespace ProviderScout

namespace IpAddress

open Text

theorem number_append {base limit bound n : Nat} {rest : List Char} (hone : 1 < base)
    (hbase : base ≤ 16) (hlimit : (Nat.toDigits base n).length ≤ limit) (hn : n < bound)
    (hrest : NoDigitHead base rest) :
    number base limit bound (Nat.toDigits base n ++ rest) = some (n, rest) := by
  have hspan : spanDigits base (Nat.toDigits base n ++ rest).length (Nat.toDigits base n ++ rest) =
      (Nat.toDigits base n, rest) :=
    spanDigits_append (isDigit_of_mem_toDigits hone hbase n)
      (by rw [List.length_append]; exact Nat.le_add_right _ _) hrest
  have hempty : (Nat.toDigits base n).isEmpty = false := by
    rw [List.isEmpty_eq_false_iff]
    exact Nat.toDigits_ne_nil
  rw [number, hspan]
  simp only [ofDigits_toDigits hone hbase, hempty]
  rw [if_neg]
  simp only [Bool.false_or, Bool.or_eq_true, decide_eq_true_eq]
  omega

theorem number_eq_none {base limit bound : Nat} {cs : List Char} (h : NoDigitHead base cs) :
    number base limit bound cs = none := by
  have hspan : spanDigits base cs.length ([] ++ cs) = ([], cs) :=
    spanDigits_append (List.forall_mem_nil _) (Nat.zero_le _) h
  rw [number]
  rw [List.nil_append] at hspan
  rw [hspan]
  rfl

theorem number_whole {bound n : Nat} (hn : n < bound) {rest : List Char}
    (hrest : NoDigitHead 10 rest) :
    number 10 (Nat.toDigits 10 n ++ rest).length bound (Nat.toDigits 10 n ++ rest) =
      some (n, rest) :=
  number_append (by decide) (by decide) (by rw [List.length_append]; exact Nat.le_add_right _ _) hn
    hrest

theorem digits_of_number {base limit bound n : Nat} {cs rest : List Char}
    (h : number base limit bound cs = some (n, rest)) :
    ∃ ds, cs = ds ++ rest ∧ ∀ c ∈ ds, isDigit base c = true := by
  rw [number] at h
  split at h
  rename_i digits behind hspan
  simp only at h
  split at h
  · cases h
  · cases h
    rw [spanDigits, List.take_length, Prod.mk.injEq] at hspan
    obtain ⟨rfl, rfl⟩ := hspan
    exact ⟨_, (List.prefix_iff_eq_append.1 (List.takeWhile_prefix _)).symm,
      List.all_eq_true.1 List.all_takeWhile⟩

def octetText (n : UInt8) : List Char := Nat.toDigits 10 n.toNat

theorem octet_append (n : UInt8) {rest : List Char} (hrest : NoDigitHead 10 rest) :
    octet (octetText n ++ rest) = some (n, rest) := by
  have hn : n.toNat < 256 := n.toNat_lt
  have hread : (number 10 3 256 (octetText n ++ rest)).map (fun r => (r.1.toUInt8, r.2)) =
      some (n, rest) := by
    have hlength : (Nat.toDigits 10 n.toNat).length ≤ 3 :=
      (Nat.length_toDigits_le_iff (by decide) (by decide)).2 (by omega)
    rw [octetText, number_append (by decide) (by decide) hlength hn hrest]
    simp
  unfold octet
  split
  · rename_i d tail hcs
    -- only zero is written with a zero in front
    by_cases hzero : n.toNat = 0
    · rw [octetText, hzero, Nat.toDigits_zero, List.singleton_append, List.cons.injEq] at hcs
      obtain ⟨_, rfl⟩ := hcs
      have hdigit : d.isDigit = false := by
        rw [Bool.eq_false_iff]
        intro hd
        have hread := hrest d rfl
        rw [isDigit_ten_of_isDigit hd] at hread
        cases hread
      have hn : n = 0 := UInt8.toNat_inj.1 hzero
      rw [hdigit, if_neg Bool.false_ne_true, hn]
      rfl
    · have hhead : (Nat.toDigits 10 n.toNat).head? ≠ some '0' :=
        head?_toDigits_ne_zero (by decide) (by decide) hzero
      have hsame : (Nat.toDigits 10 n.toNat ++ rest).head? = (Nat.toDigits 10 n.toNat).head? :=
        List.head?_append_of_ne_nil _ Nat.toDigits_ne_nil
      rw [← hsame] at hhead
      rw [octetText] at hcs
      rw [hcs] at hhead
      exact (hhead rfl).elim
  · exact hread

theorem toList_dotted (a b c d : UInt8) :
    (dotted a b c d).toList = octetText a ++ '.' :: (octetText b ++ '.' :: (octetText c ++ '.' ::
      octetText d)) := by
  have hoctet (n : UInt8) : (toString n.toNat).toList = octetText n := by
    rw [Nat.toString_eq_ofList_toDigits, String.toList_ofList, octetText]
  have hdot : ".".toList = ['.'] := rfl
  rw [dotted, String.toList_intercalate, hdot]
  simp only [List.map_cons, List.map_nil, hoctet, List.intercalate_cons_cons,
    List.intercalate_singleton, List.append_assoc, List.singleton_append]

theorem octets_append (a b c d : UInt8) {rest : List Char} (hrest : NoDigitHead 10 rest) :
    octets (octetText a ++ '.' :: (octetText b ++ '.' :: (octetText c ++ '.' ::
      (octetText d ++ rest)))) = some ((a, b, c, d), rest) := by
  have hdot (cs : List Char) : NoDigitHead 10 ('.' :: cs) := noDigitHead_cons (by decide) cs
  have htoken (cs : List Char) : token '.' ('.' :: cs) = some ((), cs) := rfl
  simp only [octets, octet_append _ (hdot _), octet_append _ hrest, htoken, Option.bind_eq_bind,
    Option.bind_some, Option.pure_def]

theorem digits_of_octet {cs rest : List Char} {n : UInt8} (h : octet cs = some (n, rest)) :
    ∃ ds, cs = ds ++ rest ∧ ∀ c ∈ ds, isDigit 10 c = true := by
  unfold octet at h
  split at h
  · split at h
    · cases h
    · cases h
      exact ⟨['0'], rfl, List.forall_mem_singleton.2 (by decide)⟩
  · obtain ⟨⟨_, _⟩, hread, heq⟩ := Option.map_eq_some_iff.1 h
    cases heq
    exact digits_of_number hread

theorem octets_eq_none {ds rest : List Char} (hds : ∀ c ∈ ds, isDigit 16 c = true)
    (hrest : NoDigitHead 16 rest) (hdot : rest.head? ≠ some '.') : octets (ds ++ rest) = none := by
  have htoken {n : UInt8} {behind : List Char} (h : octet (ds ++ rest) = some (n, behind)) :
      token '.' behind = none := by
    obtain ⟨ds', hcs, hds'⟩ := digits_of_octet h
    cases behind with
    | nil => rfl
    | cons c tail =>
      rw [token, if_neg]
      intro hc
      cases eq_of_beq hc
      have hsame : ds = ds' := by
        rw [← takeWhile_append hds hrest, hcs, takeWhile_append fun c hc =>
          isDigit_mono (by decide) (hds' c hc)]
        exact noDigitHead_cons (by decide) tail
      rw [hsame] at hcs
      rw [List.append_cancel_left hcs] at hdot
      exact hdot rfl
  rw [octets]
  cases hoctet : octet (ds ++ rest) with
  | none => rfl
  | some r =>
    obtain ⟨n, behind⟩ := r
    simp only [Option.bind_eq_bind, Option.bind_some, htoken hoctet, Option.bind_none]

def groupDigits (g : UInt16) : List Char := Nat.toDigits 16 g.toNat

def furtherGroups (gs : List UInt16) : List Char := gs.flatMap fun g => ':' :: groupDigits g

theorem toList_intercalate_groups (g : UInt16) (gs : List UInt16) :
    (":".intercalate ((g :: gs).map groupText)).toList = groupDigits g ++ furtherGroups gs := by
  have hgroup (g : UInt16) : (groupText g).toList = groupDigits g := by
    rw [groupText, String.toList_ofList, groupDigits]
  have hcolon : ":".toList = [':'] := rfl
  rw [String.toList_intercalate, hcolon]
  induction gs generalizing g with
  | nil => simp [hgroup, furtherGroups]
  | cons g' gs ih =>
    rw [List.map_cons, List.map_cons, List.map_cons, List.map_cons, List.intercalate_cons_cons,
      ← List.map_cons, ← List.map_cons, ih, hgroup]
    simp [furtherGroups]

section Groups

variable {rest : List Char}

/-- Nothing follows that could belong to a group or stand for more of them. -/
structure Ends (rest : List Char) : Prop where
  digit : NoDigitHead 16 rest
  dot : rest.head? ≠ some '.'
  further : ∀ room, groups false room rest = (([], false), rest)

theorem group_append (g : UInt16) (hrest : NoDigitHead 16 rest) (hdot : rest.head? ≠ some '.') :
    octets (groupDigits g ++ rest) = none ∧
      number 16 4 65536 (groupDigits g ++ rest) = some (g.toNat, rest) := by
  have hlength : (Nat.toDigits 16 g.toNat).length ≤ 4 :=
    (Nat.length_toDigits_le_iff (by decide) (by decide)).2 g.toNat_lt
  exact ⟨octets_eq_none (isDigit_of_mem_toDigits (by decide) (by decide) _) hrest hdot,
    number_append (by decide) (by decide) hlength g.toNat_lt hrest⟩

theorem groups_cons {g : UInt16} {gs : List UInt16} {embedded : Bool} {room : Nat}
    {behind last : List Char} (hdigit : NoDigitHead 16 behind) (hdot : behind.head? ≠ some '.')
    (hgroups : groups false room behind = ((gs, embedded), last)) :
    groups true (room + 1) (groupDigits g ++ behind) = ((g :: gs, embedded), last) ∧
      groups false (room + 1) (':' :: (groupDigits g ++ behind)) = ((g :: gs, embedded), last) := by
  obtain ⟨hoctets, hnumber⟩ := group_append g hdigit hdot
  have hif : (if room = 0 then none else octets (groupDigits g ++ behind)) = none := by
    rw [hoctets, ite_self]
  have hg : g.toNat.toUInt16 = g := by simp
  have htoken : token ':' (':' :: (groupDigits g ++ behind)) =
      some ((), groupDigits g ++ behind) := rfl
  constructor
  · rw [groups, if_pos rfl]
    simp only [hif, hnumber, hgroups, hg]
  · rw [groups, if_neg Bool.false_ne_true, htoken]
    simp only [hif, hnumber, hgroups, hg]

theorem Ends.behind_further (hrest : Ends rest) (gs : List UInt16) :
    NoDigitHead 16 (furtherGroups gs ++ rest) ∧ (furtherGroups gs ++ rest).head? ≠ some '.' := by
  cases gs with
  | nil => exact ⟨hrest.digit, hrest.dot⟩
  | cons g gs => exact ⟨noDigitHead_cons (by decide) _, nofun⟩

theorem groups_further (gs : List UInt16) {room : Nat} (hroom : gs.length ≤ room)
    (hrest : Ends rest) : groups false room (furtherGroups gs ++ rest) = ((gs, false), rest) := by
  induction gs generalizing room with
  | nil => exact hrest.further room
  | cons g gs ih =>
    cases room with
    | zero => cases hroom
    | succ room =>
      obtain ⟨hdigit, hdot⟩ := hrest.behind_further gs
      have hmore := (groups_cons (g := g) hdigit hdot (ih (Nat.le_of_succ_le_succ hroom))).2
      simpa [furtherGroups] using hmore

theorem no_group (hdigit : NoDigitHead 16 rest) (hdot : rest.head? ≠ some '.') (room : Nat) :
    groups true room rest = (([], false), rest) ∧
      groups false room (':' :: rest) = (([], false), ':' :: rest) := by
  cases room with
  | zero => exact ⟨rfl, rfl⟩
  | succ room =>
    have hoctets : octets ([] ++ rest) = none :=
      octets_eq_none (List.forall_mem_nil _) hdigit hdot
    rw [List.nil_append] at hoctets
    have htoken : token ':' (':' :: rest) = some ((), rest) := rfl
    rw [groups, if_pos rfl, groups, if_neg Bool.false_ne_true, htoken]
    simp only [hoctets, ite_self, number_eq_none hdigit, and_self]

def groupsPart (gs : List UInt16) : List Char := (":".intercalate (gs.map groupText)).toList

theorem groups_part (gs : List UInt16) {room : Nat} (hroom : gs.length ≤ room)
    (hrest : Ends rest) : groups true room (groupsPart gs ++ rest) = ((gs, false), rest) := by
  cases gs with
  | nil => exact (no_group hrest.digit hrest.dot room).1
  | cons g gs =>
    cases room with
    | zero => cases hroom
    | succ room =>
      obtain ⟨hdigit, hdot⟩ := hrest.behind_further gs
      have hgroups := groups_further gs (Nat.le_of_succ_le_succ hroom) hrest
      rw [groupsPart, toList_intercalate_groups, List.append_assoc]
      exact (groups_cons hdigit hdot hgroups).1

theorem ends_colons (cs : List Char) : Ends (':' :: ':' :: cs) where
  digit := noDigitHead_cons (by decide) _
  dot := by simp
  further room := (no_group (noDigitHead_cons (by decide) cs) (by simp) room).2

theorem ends_of_ne (hdigit : NoDigitHead 16 rest) (hdot : rest.head? ≠ some '.')
    (hcolon : rest.head? ≠ some ':') : Ends rest where
  digit := hdigit
  dot := hdot
  further room := by
    have htoken : token ':' rest = none := by
      cases rest with
      | nil => rfl
      | cons c cs => exact if_neg fun hc => hcolon (congrArg some (eq_of_beq hc))
    cases room with
    | zero => rfl
    | succ room =>
      rw [groups, if_neg Bool.false_ne_true, htoken]

end Groups

/-- A run lies within groups and all of it are zeros. -/
def ZeroRun.Within (groups : List UInt16) (run : ZeroRun) : Prop :=
  (groups.drop run.start).take run.size = List.replicate run.size 0

theorem ZeroRun.Within.longer {groups rest : List UInt16} {run : ZeroRun} {i : Nat}
    (h : run.Within groups) (hend : run.size ≠ 0 → run.start + run.size = i)
    (hrest : groups.drop i = 0 :: rest) :
    let longer : ZeroRun :=
      if run.size == 0 then ⟨i, 1⟩ else { run with size := run.size + 1 }
    longer.Within groups ∧ longer.start + longer.size = i + 1 := by
  intro longer
  have hrun : (groups.drop run.start).take run.size = List.replicate run.size 0 := h
  by_cases hsize : run.size = 0
  · have hlonger : longer = ⟨i, 1⟩ := if_pos (beq_iff_eq.2 hsize)
    rw [hlonger, Within, hrest]
    exact ⟨rfl, rfl⟩
  · have hlonger : longer = ⟨run.start, run.size + 1⟩ := if_neg fun hb => hsize (eq_of_beq hb)
    have hlast := hend hsize
    have hnext : (groups.drop run.start)[run.size]? = some 0 := by
      rw [List.getElem?_drop, hlast, ← List.head?_drop, hrest]
      rfl
    rw [hlonger, Within, List.take_add_one, hrun, hnext, List.replicate_succ']
    exact ⟨rfl, congrArg (· + 1) hlast⟩

theorem within_longestZeroRun {groups : List UInt16} {i : Nat} {current best : ZeroRun}
    (hcurrent : current.Within groups) (hend : current.size ≠ 0 → current.start + current.size = i)
    (hbest : best.Within groups) {rest : List UInt16} (hrest : groups.drop i = rest) :
    (longestZeroRun i current best rest).Within groups := by
  induction rest generalizing i current best with
  | nil => exact hbest
  | cons g rest ih =>
    have hnext : groups.drop (i + 1) = rest := by
      rw [← List.tail_drop, hrest]
      rfl
    have hbetter {run : ZeroRun} (hrun : run.Within groups) :
        (if best.size < run.size then run else best).Within groups := by
      split
      · exact hrun
      · exact hbest
    rw [longestZeroRun]
    split
    · rename_i hg
      rw [eq_of_beq hg] at hrest
      obtain ⟨hlonger, hlast⟩ := hcurrent.longer hend hrest
      exact ih hlonger (fun _ => hlast) (hbetter hlonger) hnext
    · have hnone : (⟨0, 0⟩ : ZeroRun).Within groups := rfl
      exact ih hnone (fun h => (h rfl).elim) hbest hnext

theorem ZeroRun.Within.split {groups : List UInt16} {run : ZeroRun} (h : run.Within groups) :
    groups.take run.start ++ List.replicate run.size 0 ++ groups.drop (run.start + run.size) =
      groups := by
  have hrun : (groups.drop run.start).take run.size = List.replicate run.size 0 := h
  rw [← hrun, List.append_assoc, ← List.drop_drop, List.take_append_drop, List.take_append_drop]

theorem ofGroups_toList (v : Vector UInt16 8) : ofGroups v.toList = v := by
  apply Vector.ext
  intro i hi
  rw [ofGroups, Vector.getElem_ofFn, List.getD_eq_getElem?_getD,
    List.getElem?_eq_getElem (by simpa using hi), Option.getD_some, Vector.getElem_toList]

theorem halves (g : UInt16) :
    (g / 256).toUInt8.toUInt16 * 256 + g.toUInt8.toUInt16 = g := by
  have hg : g.toNat < 65536 := g.toNat_lt
  apply UInt16.toNat_inj.1
  simp
  omega

section Eight

variable {rest : List Char}

theorem eightGroups_colons {behind : List UInt16} {embedded : Bool} {cs : List Char}
    (h : groups true 7 cs = ((behind, embedded), rest)) :
    eightGroups (':' :: ':' :: cs) =
      some (ofGroups (List.replicate (8 - behind.length) 0 ++ behind), rest) := by
  have hfront := (no_group (ends_colons cs).digit (ends_colons cs).dot 8).1
  rw [eightGroups, hfront]
  simp [h]

/-- Zeros that are left out are read. -/
theorem eightGroups_compressed (before behind : List UInt16)
    (hroom : before.length + behind.length < 8) (hrest : Ends rest) :
    eightGroups (groupsPart before ++ ':' :: ':' :: (groupsPart behind ++ rest)) =
      some (ofGroups (before ++ List.replicate (8 - before.length - behind.length) 0 ++ behind),
        rest) := by
  have hbefore : before.length ≠ 8 := by omega
  have hbehind : groups true (7 - before.length) (groupsPart behind ++ rest) =
      ((behind, false), rest) := groups_part behind (by omega) hrest
  rw [eightGroups, groups_part before (by omega) (ends_colons _)]
  simp only [hbefore, ↓reduceIte, Bool.false_eq_true, hbehind]

theorem eightGroups_embedded (high low : UInt16) (hrest : Ends rest) :
    eightGroups ((groupsText [0, 0, 0, 0, 0, 0xffff, high, low]).toList ++ rest) =
      some (ofGroups [0, 0, 0, 0, 0, 0xffff, high, low], rest) := by
  have hdecimal : NoDigitHead 10 rest := fun c hc => by
    rw [Bool.eq_false_iff]
    intro hten
    have hsixteen := hrest.digit c hc
    rw [isDigit_mono (by decide) hten] at hsixteen
    cases hsixteen
  have hoctets := octets_append (high / 256).toUInt8 high.toUInt8 (low / 256).toUInt8 low.toUInt8
    hdecimal
  have hprefix : "::ffff:".toList = ':' :: ':' :: (groupDigits 0xffff ++ [':']) := by decide
  rw [groupsText, String.toList_append, toList_dotted, hprefix]
  simp only [List.cons_append, List.append_assoc, List.nil_append]
  generalize octetText (high / 256).toUInt8 ++ _ = embedded at hoctets ⊢
  have hlast : groups false 6 (':' :: embedded) = (([high, low], true), rest) := by
    have htoken : token ':' (':' :: embedded) = some ((), embedded) := rfl
    rw [groups, if_neg Bool.false_ne_true, htoken]
    simp only [hoctets, if_neg (show ¬ (5 : Nat) = 0 by decide), halves]
  have hcolon : NoDigitHead 16 (':' :: embedded) := noDigitHead_cons (by decide) embedded
  have hgroups := (groups_cons (g := 0xffff) hcolon (by simp) hlast).1
  have hread := eightGroups_colons hgroups
  exact hread

theorem eightGroups_append {gs : List UInt16} (hgs : gs.length = 8) (hrest : Ends rest) :
    eightGroups ((groupsText gs).toList ++ rest) = some (ofGroups gs, rest) := by
  unfold groupsText
  split
  · exact eightGroups_embedded _ _ hrest
  · have hnone : (⟨0, 0⟩ : ZeroRun).Within gs := rfl
    have hrun : (longestZeroRun 0 ⟨0, 0⟩ ⟨0, 0⟩ gs).Within gs :=
      within_longestZeroRun hnone (fun h => (h rfl).elim) hnone rfl
    generalize longestZeroRun 0 ⟨0, 0⟩ ⟨0, 0⟩ gs = run at hrun
    simp only
    split
    · rename_i hsize
      have hsplit := hrun.split
      have hlengths := congrArg List.length hsplit
      rw [List.length_append, List.length_append, List.length_replicate, hgs] at hlengths
      have hcolons : "::".toList = [':', ':'] := rfl
      have hzeros : 8 - (gs.take run.start).length - (gs.drop (run.start + run.size)).length =
          run.size := by omega
      have hread := eightGroups_compressed (gs.take run.start)
        (gs.drop (run.start + run.size)) (by omega) hrest
      rw [hzeros, hsplit] at hread
      rw [String.toList_append, String.toList_append, hcolons, ← groupsPart, ← groupsPart,
        List.append_assoc, List.append_assoc]
      exact hread
    · rw [← groupsPart, eightGroups, groups_part gs (Nat.le_of_eq hgs) hrest]
      simp only [hgs, ↓reduceIte]

end Eight

end IpAddress

namespace SocketAddress

open IpAddress Text

theorem toList_toString (n : Nat) : (toString n).toList = Nat.toDigits 10 n := by
  rw [Nat.toString_eq_ofList_toDigits, String.toList_ofList]

theorem portPart_append (port : UInt16) :
    portPart (':' :: Nat.toDigits 10 port.toNat) = some (port, []) := by
  have hread := number_whole port.toNat_lt (noDigitHead_nil 10)
  rw [List.append_nil] at hread
  have htoken : token ':' (':' :: Nat.toDigits 10 port.toNat) =
      some ((), Nat.toDigits 10 port.toNat) := rfl
  simp [portPart, htoken, hread]

theorem ofV4_text (a b c d : UInt8) (port : UInt16) :
    ofV4 (text ⟨.v4 a b c d, port⟩).toList = some (⟨.v4 a b c d, port⟩, []) := by
  have hcolon : ":".toList = [':'] := rfl
  have hrest : NoDigitHead 10 (':' :: Nat.toDigits 10 port.toNat) :=
    noDigitHead_cons (by decide) _
  have hoctets := octets_append a b c d hrest
  simp only [text, String.toList_append, toList_dotted, toList_toString, hcolon,
    List.append_assoc, List.cons_append, List.nil_append]
  simp [ofV4, hoctets, portPart_append]

def zoneText (scope : UInt32) : List Char :=
  if scope == 0 then [] else '%' :: Nat.toDigits 10 scope.toNat

theorem scopePart_append (scope : UInt32) (rest : List Char) :
    scopePart (zoneText scope ++ ']' :: rest) = (scope, ']' :: rest) := by
  rw [zoneText]
  split
  · rename_i hzero
    rw [eq_of_beq hzero]
    rfl
  · have hscope : scope.toNat < 4294967296 := scope.toNat_lt
    have hrest : NoDigitHead 10 (']' :: rest) := noDigitHead_cons (by decide) rest
    have hread := number_whole hscope hrest
    rw [List.cons_append, scopePart]
    simp only [hread, Nat.toUInt32_eq, UInt32.ofNat_toNat]

theorem ends_zone (scope : UInt32) (rest : List Char) : Ends (zoneText scope ++ ']' :: rest) := by
  rw [zoneText]
  split
  · exact ends_of_ne (noDigitHead_cons (by decide) _) (by simp) (by simp)
  · exact ends_of_ne (noDigitHead_cons (by decide) _) (by simp) (by simp)

theorem ofV6_text (groups : Vector UInt16 8) (scope : UInt32) (port : UInt16) :
    ofV4 (text ⟨.v6 groups scope, port⟩).toList = none ∧
      ofV6 (text ⟨.v6 groups scope, port⟩).toList = some (⟨.v6 groups scope, port⟩, []) := by
  have hopen : "[".toList = ['['] := rfl
  have hclose : "]:".toList = [']', ':'] := rfl
  have hzone :
      (if scope == 0 then "" else "%" ++ toString scope.toNat).toList = zoneText scope := by
    rw [zoneText]
    split
    · rfl
    · rw [String.toList_append, toList_toString]
      rfl
  have hgroups := eightGroups_append groups.length_toList
    (ends_zone scope (':' :: Nat.toDigits 10 port.toNat))
  rw [ofGroups_toList] at hgroups
  have htext : (text ⟨.v6 groups scope, port⟩).toList = '[' :: ((groupsText groups.toList).toList ++
      (zoneText scope ++ ']' :: ':' :: Nat.toDigits 10 port.toNat)) := by
    simp only [text, String.toList_append, hzone, toList_toString, hopen, hclose,
      List.append_assoc, List.cons_append, List.nil_append]
  rw [htext]
  constructor
  · rfl
  · have hopened (cs : List Char) : token '[' ('[' :: cs) = some ((), cs) := rfl
    have hclosed (cs : List Char) : token ']' (']' :: cs) = some ((), cs) := rfl
    simp [ofV6, hopened, hgroups, scopePart_append, hclosed, portPart_append]

/-- What is written for an address is read as that address. -/
theorem parse?_text (s : SocketAddress) : parse? s.text = some s := by
  obtain ⟨ip, port⟩ := s
  cases ip with
  | v4 a b c d =>
    rw [parse?]
    simp only [ofV4_text, Option.some_or]
  | v6 groups scope =>
    obtain ⟨hv4, hv6⟩ := ofV6_text groups scope port
    rw [parse?]
    simp only [hv4, hv6, Option.none_or]

end SocketAddress

end ProviderScout
