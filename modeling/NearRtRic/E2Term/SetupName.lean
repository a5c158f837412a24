/-
# The name that a setup leaves in three places

`collectSetupAndServiceUpdate_RequestData` has the name of the RAN built in the field of
the connection, which it has cleared, copies it over the field of the outgoing message
without the NUL that ends it, and enters the connection in the map under what the field of
the message then shows.  That field was filled with the connection's old name, so that the
end of an old name shows behind a new one that is shorter.

`agree_iff` is the condition under which the three are the name of the identity, after any
history of setup requests on the connection.  Where each request has one identity it is a
condition on the lengths of two names (`agree_collectSetup_iff`).
-/

import NearRtRic.E2Term.Peers

namespace NearRtRic.E2Term

open CString Termination

/-! ### Appending over what a buffer holds -/

/-- Characters appended one after the other. -/
def appends (ranName text : Bytes) : Bytes := text.foldl (fun r c => append r [c]) ranName

/-- What is appended is visible behind what was. -/
theorem length_visible_append (r : Bytes) {text : Bytes} (h : 0 ∉ text) :
    (visible r).length + text.length ≤ (visible (append r text)).length := by
  have hno : 0 ∉ visible r ++ text := by simp [zero_notMem_visible, h]
  rw [append, memcpy, visible_append hno, List.length_append, List.length_append]
  omega

/-- What is appended without a NUL makes the text longer. -/
theorem length_visible_appends (r : Bytes) {text : Bytes} (h : 0 ∉ text) :
    (visible r).length + text.length ≤ (visible (appends r text)).length := by
  induction text generalizing r with
  | nil => exact le_refl _
  | cons c text ih =>
      rw [List.mem_cons, not_or] at h
      have hfirst := @length_visible_append r [c] (by simp [h.1])
      have hrest := ih (append r [c]) h.2
      rw [appends, List.foldl_cons]
      rw [appends] at hrest
      rw [List.length_singleton] at hfirst
      rw [List.length_cons]
      omega

/-- A character takes the place of a NUL. -/
theorem append_of_zero {r rest : Bytes} (hr : 0 ∉ r) (hrest : rest.getD 0 0 = 0) (c : UInt8) :
    append (r ++ rest) [c] = r ++ [c] ++ rest.tail := by
  rw [append, memcpy, visible_append hr, visible_eq_nil_iff.2 hrest, List.append_nil,
    List.drop_append, List.drop_eq_nil_of_le (by simp), List.nil_append, List.length_append,
    Nat.add_sub_cancel_left, List.length_singleton, List.drop_one]

/-- **A text shows behind another exactly if NULs are in its place and behind it.** -/
theorem visible_appends_iff {r text : Bytes} (hr : 0 ∉ r) (h : 0 ∉ text) (rest : Bytes) :
    visible (appends (r ++ rest) text) = r ++ text ↔ ∀ i ≤ text.length, rest.getD i 0 = 0 := by
  induction text generalizing r rest with
  | nil =>
      rw [appends, List.foldl_nil, visible_append hr, List.append_cancel_left_eq,
        visible_eq_nil_iff]
      constructor
      · rintro hrest i hi
        rwa [Nat.le_zero.1 hi]
      · exact fun hrest => hrest 0 (Nat.zero_le _)
  | cons c text ih =>
      rw [List.mem_cons, not_or] at h
      by_cases hrest : rest.getD 0 0 = 0
      · have hrc : 0 ∉ r ++ [c] := by simp [hr, h.1]
        have htail : ∀ i, rest.tail.getD i 0 = rest.getD (i + 1) 0 := by
          intro i
          cases rest <;> simp
        have htext : r ++ c :: text = r ++ [c] ++ text := by simp
        rw [appends, List.foldl_cons, append_of_zero hr hrest, ← appends, htext,
          ih hrc h.2 rest.tail]
        constructor
        · rintro hall (_ | i) hi
          · exact hrest
          · rw [← htail]
            exact hall i (Nat.le_of_succ_le_succ hi)
        · intro hall i hi
          rw [htail]
          exact hall (i + 1) (Nat.succ_le_succ hi)
      · -- what lies behind `r` stays visible, so that too much is seen
        refine iff_of_false (fun heq => ?_) fun hall => hrest (hall 0 (Nat.zero_le _))
        have hno : (0 : UInt8) ∉ c :: text := by
          rw [List.mem_cons, not_or]
          exact h
        have hlen := length_visible_appends (r ++ rest) hno
        have hpos : 0 < (visible rest).length :=
          List.length_pos_of_ne_nil fun hnil => hrest (visible_eq_nil_iff.1 hnil)
        rw [heq, visible_append hr, List.length_append, List.length_append] at hlen
        omega

/-- A bit string is appended behind a hyphen. -/
theorem translateBitStringToChar_eq_appends (b data : Bytes) :
    translateBitStringToChar b data = appends b (ascii "-" ++ hexDigits data) := by
  have hloop : ∀ (data r : Bytes), data.foldl
      (fun r b => append (append r (hex (hi b))) (hex (lo b))) r = appends r (hexDigits data) := by
    intro data
    induction data with
    | nil => exact fun _ => rfl
    | cons b data ih =>
        intro r
        obtain ⟨x, hx⟩ := List.length_eq_one_iff.1 (length_hex (hi b))
        obtain ⟨y, hy⟩ := List.length_eq_one_iff.1 (length_hex (lo b))
        rw [List.foldl_cons, ih, hexDigits, hexDigits, List.flatMap_cons, hx, hy]
        rfl
  rw [translateBitStringToChar, hloop]
  rfl

/-! ### The name of an identity over an old one -/

/-- The kind, the PLMN and the ID of a usable identity. -/
def GlobalE2nodeID.parts : GlobalE2nodeID → Option (Bytes × PlmnId × Option Bytes)
  | gNB plmn gnb_id => some (ascii "gnb:", plmn, gnb_id)
  | en_gNB plmn gNB_ID => some (ascii "en-gnb:", plmn, gNB_ID)
  | ng_eNB_macroID plmn enb_ID => some (ascii "ng-enB-macro:", plmn, some enb_ID)
  | ng_eNB_shortmacroID plmn enb_ID => some (ascii "ng-enB-shortmacro:", plmn, some enb_ID)
  | ng_eNB_longmacroID plmn enb_ID => some (ascii "ng-enB-longmacro:", plmn, some enb_ID)
  | eNB_macroID plmn eNB_ID => some (ascii "enB-macro:", plmn, some eNB_ID)
  | eNB_homeID plmn eNB_ID => some (ascii "enB-home:", plmn, some eNB_ID)
  | eNB_shortmacroID plmn eNB_ID => some (ascii "enB-shortmacro:", plmn, some eNB_ID)
  | eNB_longmacroID plmn eNB_ID => some (ascii "enB-longmacro:", plmn, some eNB_ID)
  | nothing => none

/-- The text of kind and PLMN, which is printed with a NUL behind it. -/
def GlobalE2nodeID.plmnPart (id : GlobalE2nodeID) : Bytes :=
  id.parts.elim [] fun x => (plmnText x.2.1 x.1).take 19

/-- A name is built of the parts of its identity. -/
theorem buildRanName_eq_parts (b : Bytes) (id : GlobalE2nodeID) :
    buildRanName b id = id.parts.map fun x =>
      x.2.2.elim (translatePlmnId b x.2.1 x.1)
        (translateBitStringToChar (translatePlmnId b x.2.1 x.1)) := by
  cases id <;> rfl

/-- The part of the PLMN has no NUL. -/
theorem zero_notMem_plmnPart (id : GlobalE2nodeID) : 0 ∉ id.plmnPart := by
  have htype : ∀ x, id.parts = some x → 0 ∉ x.1 := by
    intro x hx
    cases id with
    | nothing => cases hx
    | _ =>
        obtain rfl := Option.some.inj hx
        dsimp only
        decide
  unfold GlobalE2nodeID.plmnPart
  cases hparts : id.parts with
  | none => exact List.not_mem_nil
  | some x =>
      exact fun hmem => zero_notMem_plmnText (htype x hparts) (List.mem_of_mem_take hmem)

/-- The buffer that an identity leaves, in its parts. -/
theorem buildRanName_cases {old b : Bytes} {id : GlobalE2nodeID}
    (h : buildRanName old id = some b) :
    ∃ d : Option Bytes, id.parts.map (·.2.2) = some d ∧
      b = appends (id.plmnPart ++ 0 :: old.drop (id.plmnPart.length + 1))
        (d.elim [] (ascii "-" ++ hexDigits ·)) := by
  rw [buildRanName_eq_parts] at h
  obtain ⟨⟨type, plmn, d⟩, hparts, rfl⟩ := Option.map_eq_some_iff.1 h
  have hplmn : id.plmnPart = (plmnText plmn type).take 19 := by
    rw [GlobalE2nodeID.plmnPart, hparts, Option.elim_some]
  have htext : translatePlmnId old plmn type =
      id.plmnPart ++ 0 :: old.drop (id.plmnPart.length + 1) := by
    rw [hplmn, translatePlmnId, snprintf, memcpy, List.length_append, List.append_assoc]
    rfl
  refine ⟨d, by rw [hparts, Option.map_some], ?_⟩
  dsimp only
  rw [htext]
  cases d with
  | none => rfl
  | some data => exact translateBitStringToChar_eq_appends _ data

/-- **When the name of an identity is what its buffer shows**: behind the kind and the PLMN
the old bytes are NULs, up to the one that ends the name. -/
theorem visible_buildRanName_iff {old b : Bytes} {id : GlobalE2nodeID} {n : Bytes}
    (hb : buildRanName old id = some b) (hn : ranName id = some n) :
    visible b = n ↔ ∀ i, id.plmnPart.length < i → i ≤ n.length → old.getD i 0 = 0 := by
  have hno := zero_notMem_plmnPart id
  obtain ⟨d, hd, rfl⟩ := buildRanName_cases hb
  obtain ⟨b₀, hb₀, rfl⟩ := Option.map_eq_some_iff.1 hn
  obtain ⟨d₀, hd₀, rfl⟩ := buildRanName_cases hb₀
  obtain rfl := Option.some.inj (hd.symm.trans hd₀)
  have htext : (0 : UInt8) ∉ d.elim [] (ascii "-" ++ hexDigits ·) := by
    cases d with
    | none => exact List.not_mem_nil
    | some data =>
        simp [zero_notMem_hexDigits, show (0 : UInt8) ∉ ascii "-" by decide]
  have hname : visible (appends (id.plmnPart ++ 0 :: List.drop (id.plmnPart.length + 1) [])
      (d.elim [] (ascii "-" ++ hexDigits ·))) =
        id.plmnPart ++ d.elim [] (ascii "-" ++ hexDigits ·) := by
    refine (visible_appends_iff hno htext _).2 fun i _ => ?_
    cases i <;> simp
  rw [hname, visible_appends_iff hno htext]
  have hshift : ∀ i, (0 :: old.drop (id.plmnPart.length + 1)).getD (i + 1) 0 =
      old.getD (id.plmnPart.length + 1 + i) 0 := by
    intro i
    simp [List.getD_eq_getElem?_getD, List.getElem?_drop]
  constructor
  · intro hall i hi hle
    rw [List.length_append] at hle
    obtain ⟨j, rfl⟩ : ∃ j, i = id.plmnPart.length + 1 + j := ⟨i - id.plmnPart.length - 1, by omega⟩
    rw [← hshift]
    exact hall (j + 1) (by omega)
  · rintro hall (_ | j) hj
    · rfl
    · rw [hshift]
      refine hall _ (by omega) ?_
      rw [List.length_append]
      omega

/-! ### The three places -/

/-- The name field of the message, the one of the connection, and the key that is entered
into the map `m`, are the name `n`. -/
structure Agree (p : Nat) (m : SctpMap) (n : Bytes) (r : Setup) : Prop where
  message : visible r.message = n
  peer : visible r.enodbName = n
  key : r.sctpMap = m.insert n p

/-- The fields have NULs where the name of the identity needs them: the one of the
connection behind the kind and the PLMN, the one of the message at the name's end. -/
def Fits (r : Setup) (id : GlobalE2nodeID) : Prop :=
  ∀ n, ranName id = some n →
    (∀ i, id.plmnPart.length < i → i ≤ n.length → r.enodbName.getD i 0 = 0) ∧
      r.message.getD n.length 0 = 0

variable {p : Nat} {s : Termination} {cu : ConnectedCU} {r : Setup} {n : Bytes}

/-- A name that is copied over an old one without its NUL. -/
theorem visible_memcpy_iff (h : 0 ∉ n) (old : Bytes) :
    visible (memcpy n old) = n ↔ old.getD n.length 0 = 0 := by
  have hdrop : (old.drop n.length).getD 0 0 = old.getD n.length 0 := by
    simp [List.getD_eq_getElem?_getD, List.getElem?_drop]
  rw [memcpy, visible_append h, ← hdrop, ← visible_eq_nil_iff]
  exact List.append_right_eq_self

/-- The step of the loop for an identity. -/
theorem agree_globalE2nodeID {id : GlobalE2nodeID} {b : Bytes} (hn : ranName id = some n)
    (hb : buildRanName r.enodbName id = some b) :
    Agree p r.sctpMap n ⟨b, memcpy (visible b) r.message,
      r.sctpMap.insert (visible (memcpy (visible b) r.message)) p⟩ ↔ Fits r id := by
  have hno : 0 ∉ n := (ranName_spec hn).no_nul
  have hfits : Fits r id ↔ visible b = n ∧ r.message.getD n.length 0 = 0 := by
    rw [visible_buildRanName_iff hb hn]
    constructor
    · exact fun h => h n hn
    · rintro h n' hn'
      obtain rfl := Option.some.inj (hn.symm.trans hn')
      exact h
  rw [hfits]
  constructor
  · rintro ⟨hmessage, hpeer, -⟩
    dsimp only at hmessage hpeer
    rw [hpeer] at hmessage
    exact ⟨hpeer, (visible_memcpy_iff hno _).1 hmessage⟩
  · rintro ⟨hpeer, hzero⟩
    have hmessage := (visible_memcpy_iff hno _).2 hzero
    refine ⟨?_, hpeer, ?_⟩
    · dsimp only
      rw [hpeer, hmessage]
    · dsimp only
      rw [hpeer, hmessage]

/-- The IEs behind others, unless these ended the loop. -/
theorem collectIes_append (r : Setup) (ies ies' : List SetupIe) :
    collectIes p r (ies ++ ies') = if (collectIes p r ies).2 then
      collectIes p (collectIes p r ies).1 ies' else collectIes p r ies := by
  induction ies generalizing r with
  | nil => rfl
  | cons ie ies ih =>
      cases ie with
      | globalE2nodeID id =>
          rw [List.cons_append, collectIes, collectIes]
          cases buildRanName r.enodbName id with
          | none => rfl
          | some b => exact ih _
      | ranFunctions decodes =>
          rw [List.cons_append, collectIes, collectIes]
          cases decodes with
          | true => exact ih r
          | false => rfl
      | other => exact ih r

/-- Without an identity nothing is written. -/
theorem collectIes_of_no_id {ies : List SetupIe} (h : ∀ id, .globalE2nodeID id ∉ ies) (r : Setup) :
    (collectIes p r ies).1 = r := by
  induction ies with
  | nil => rfl
  | cons ie ies ih =>
      have hrest : ∀ id, .globalE2nodeID id ∉ ies :=
        fun id hmem => h id (List.mem_cons_of_mem _ hmem)
      cases ie with
      | globalE2nodeID id => exact absurd List.mem_cons_self (h id)
      | ranFunctions decodes =>
          rw [collectIes]
          cases decodes with
          | true => exact ih hrest
          | false => rfl
      | other => exact ih hrest

/-- **The three places after a request**, whatever was in the fields. -/
theorem agree_collectIes {before after : List SetupIe} {id : GlobalE2nodeID}
    (hafter : ∀ id', .globalE2nodeID id' ∉ after)
    (hsuccess : (collectIes p r (before ++ .globalE2nodeID id :: after)).2 = true) :
    (∃ n, ranName id = some n ∧ Agree p (collectIes p r before).1.sctpMap n
      (collectIes p r (before ++ .globalE2nodeID id :: after)).1) ↔
        Fits (collectIes p r before).1 id := by
  rw [collectIes_append] at hsuccess ⊢
  cases hbefore : (collectIes p r before).2 with
  | false =>
      rw [hbefore, if_neg (by decide), hbefore] at hsuccess
      cases hsuccess
  | true =>
      rw [hbefore, if_pos rfl] at hsuccess
      rw [if_pos rfl]
      generalize (collectIes p r before).1 = r₁ at hsuccess ⊢
      rw [collectIes] at hsuccess ⊢
      cases hb : buildRanName r₁.enodbName id with
      | none =>
          rw [hb] at hsuccess
          cases hsuccess
      | some b =>
          obtain ⟨n, hn⟩ : ∃ n, ranName id = some n := by
            cases hname : ranName id with
            | none =>
                rw [(buildRanName_eq_none _).2 hname] at hb
                cases hb
            | some n => exact ⟨n, rfl⟩
          dsimp only
          rw [collectIes_of_no_id hafter, ← agree_globalE2nodeID hn hb]
          constructor
          · rintro ⟨n', hn', h⟩
            obtain rfl := Option.some.inj (hn.symm.trans hn')
            exact h
          · exact fun h => ⟨n, hn, h⟩

/-- A connection after some setup requests. -/
def setups (s : Termination) (p : Nat) (history : List (List SetupIe)) : Termination :=
  history.foldl (fun s ies => s.handlePdu p (.e2setup ies)) s

/-- `collectSetupAndServiceUpdate_RequestData` on the next request of the connection. -/
def collected (s : Termination) (p : Nat) (history : List (List SetupIe)) (ies : List SetupIe) :
    Option (Setup × Bool) :=
  ((setups s p history).peers p).map fun cu => (setups s p history).collectSetup p cu ies

/-- **When message, connection and map get one name**, the one of the last identity in the
request, after any history of requests. -/
theorem agree_iff (s : Termination) (p : Nat) (history : List (List SetupIe))
    {before after : List SetupIe} {id : GlobalE2nodeID}
    (hafter : ∀ id', .globalE2nodeID id' ∉ after) {r₁ r : Setup}
    (hr₁ : collected s p history before = some (r₁, true))
    (hr : collected s p history (before ++ .globalE2nodeID id :: after) = some (r, true)) :
    (∃ n, ranName id = some n ∧ Agree p r₁.sctpMap n r) ↔ Fits r₁ id := by
  obtain ⟨cu, hcu, hr₁⟩ := Option.map_eq_some_iff.1 hr₁
  obtain ⟨cu', hcu', hr⟩ := Option.map_eq_some_iff.1 hr
  obtain rfl := Option.some.inj (hcu.symm.trans hcu')
  have hbefore : r₁ = (collectIes p ⟨[], cu.enodbName, (setups s p history).sctpMap⟩ before).1 :=
    (congrArg Prod.fst hr₁).symm
  have hrun : r = (collectIes p ⟨[], cu.enodbName, (setups s p history).sctpMap⟩
      (before ++ .globalE2nodeID id :: after)).1 := (congrArg Prod.fst hr).symm
  rw [hbefore, hrun]
  exact agree_collectIes hafter (congrArg Prod.snd hr)

/-- The identity of a gNB, and its setup request. -/
def gNBId (data : Bytes) : GlobalE2nodeID := .gNB ⟨0x02, 0xf8, 0x29⟩ (some data)

def gNBSetup (data : Bytes) : List SetupIe := [.globalE2nodeID (gNBId data)]

/-- A connection that was accepted. -/
def connection : Termination := start.accept (ascii "10.0.3.1") 36422 true

/-- What is read of a setup that was come through is read of its data. -/
theorem exists_collected {s : Termination} {history : List (List SetupIe)} {ies : List SetupIe}
    {α : Type} {f : Setup → α} {x : α}
    (h : (collected s p history ies).map (fun r => (f r.1, r.2)) = some (x, true)) :
    ∃ r, collected s p history ies = some (r, true) ∧ f r = x := by
  obtain ⟨⟨r, b⟩, hr, heq⟩ := Option.map_eq_some_iff.1 h
  obtain ⟨rfl, rfl⟩ := Prod.mk.inj heq
  exact ⟨r, hr, rfl⟩

/-- A second setup, whose name is longer than the first one's. -/
theorem agree_iff_longer : ∃ r,
    collected connection 0 [gNBSetup [0xb5, 0xc6, 0x77]] (gNBSetup [0xb5, 0xc6, 0x77, 0x88]) =
      some (r, true) ∧ visible r.message = ascii "gnb:208-092-b5c67788" := by
  have hn : ranName (gNBId [0xb5, 0xc6, 0x77, 0x88]) = some (ascii "gnb:208-092-b5c67788") := by
    decide
  obtain ⟨r₁, hr₁, hfields⟩ := @exists_collected 0 connection [gNBSetup [0xb5, 0xc6, 0x77]] [] _
    (fun r => (r.enodbName, r.message)) ([], ascii "gnb:208-092-b5c677") (by decide)
  obtain ⟨hpeer, hmessage⟩ := Prod.mk.inj hfields
  obtain ⟨r, hr, -⟩ := @exists_collected 0 connection [gNBSetup [0xb5, 0xc6, 0x77]]
    (gNBSetup [0xb5, 0xc6, 0x77, 0x88]) _ (fun _ => ()) () (by decide)
  have hfits : Fits r₁ (gNBId [0xb5, 0xc6, 0x77, 0x88]) := by
    intro n hn'
    obtain rfl := Option.some.inj (hn.symm.trans hn')
    rw [hpeer, hmessage]
    exact ⟨fun i _ _ => rfl, by decide⟩
  obtain ⟨n, hn', hagree⟩ := (agree_iff connection 0 _ (fun _ => List.not_mem_nil) hr₁ hr).2 hfits
  obtain rfl := Option.some.inj (hn.symm.trans hn')
  exact ⟨r, hr, hagree.message⟩

/-- **A name that is shorter than the one before** is not the one in the message. -/
theorem not_agree : ¬ ∀ (s : Termination) (p : Nat) (history : List (List SetupIe))
    (before after : List SetupIe) (id : GlobalE2nodeID),
    (∀ id', .globalE2nodeID id' ∉ after) → ∀ r₁ r : Setup,
      collected s p history before = some (r₁, true) →
      collected s p history (before ++ .globalE2nodeID id :: after) = some (r, true) →
        ∃ n, ranName id = some n ∧ Agree p r₁.sctpMap n r := by
  intro hall
  obtain ⟨r₁, hr₁, -⟩ := @exists_collected 0 connection [gNBSetup [0xb5, 0xc6, 0x77, 0x88]] [] _
    (fun _ => ()) () (by decide)
  obtain ⟨r, hr, hmessage⟩ := @exists_collected 0 connection [gNBSetup [0xb5, 0xc6, 0x77, 0x88]]
    (gNBSetup [0xb5, 0xc6, 0x77]) _ (fun r => visible r.message)
    (ascii "gnb:208-092-b5c67788") (by decide)
  obtain ⟨n, hn, hagree⟩ := hall connection 0 _ [] [] _ (fun _ => List.not_mem_nil) r₁ r hr₁ hr
  have hname : ranName (gNBId [0xb5, 0xc6, 0x77]) = some (ascii "gnb:208-092-b5c677") := by decide
  obtain rfl := Option.some.inj (hname.symm.trans hn)
  have heq := hmessage.symm.trans hagree.message
  revert heq
  decide

/-! ### Requests with one identity -/

/-- Where a field is clear behind its name, it is the old name that must not be longer. -/
theorem agree_collectSetup_iff (s : Termination) (hclean : Clean cu.enodbName) {ies : List SetupIe}
    (h : names ies = [n]) :
    Agree p s.sctpMap n (s.collectSetup p cu ies).1 ↔ (visible cu.enodbName).length ≤ n.length := by
  obtain ⟨b, -, hb, hname, hrun⟩ := collectIes_of_names_singleton (p := p) cu.enodbName s.sctpMap h
  have hmessage : visible (memcpy n cu.enodbName) = n ↔
      (visible cu.enodbName).length ≤ n.length := by
    constructor
    · intro hvis
      have hzero := (visible_memcpy_iff hname.no_nul _).1 hvis
      by_contra hlt
      have hmem := getD_mem_visible (not_le.1 hlt)
      exact zero_notMem_visible _ (hzero ▸ hmem)
    · exact visible_memcpy hname.no_nul hclean
  rw [collectSetup, hrun, ← hmessage]
  constructor
  · exact fun h => h.message
  · exact fun h => ⟨h, hb, by dsimp only; rw [h]⟩

end NearRtRic.E2Term
