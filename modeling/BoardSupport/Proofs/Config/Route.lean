import BoardSupport.Proofs.Config.Variable

/-!
# Routed Changes

What a routed change does to variables that work.

Whether a change is accepted depends on the request and the data alone: the
request has to be addressed to the configuration and to name a block in it, and
the data has to fill that block with booleans. What is in the variable does not
matter, as long as it is an image, and what the store has in its copy does not
matter at all.

An accepted change replaces its block in the image the variable holds, or in
the image of the defaults if it holds none, and nothing else anywhere. So
changes of blocks without a common byte can be made in either order.

## Main definitions

* `Config.Accepts`: The changes that are made.
* `Config.IsReady`: The variable is missing or holds an image.
* `Config.base`: The image a change is made to.
* `Config.Changed`: What an accepted change leaves.

## Theorems

* `Config.Session.accepts_of_route`: Only accepted changes are made.
* `Config.Session.changed_of_accepts`: Accepted changes are made.
* `Config.Session.route_replaces_block`: Both, and that separate changes commute.
-/

namespace BoardSupport

namespace Config

open Firmware

/-- A byte of the image is in the block. -/
def Block.Covers (block : Block) (i : Nat) : Prop :=
  block.offset.toNat ≤ i ∧ i < block.offset.toNat + block.width.toNat

/-- The request is for the configuration and names a block of it, and the data
    fills that block with booleans. -/
structure Accepts (request : String) (data : List UInt8) (block : Block) : Prop where
  addressed : Header.isAddressed request = true
  parsed : Block.parse request = .ok block
  inside : block.offset.toNat + block.width.toNat ≤ 8
  length : data.length = block.width.toNat
  booleans : ∀ b ∈ data, IsBoolean b

/-- The variable is missing or holds an image. -/
def IsReady (f : Simulated) : Prop :=
  ∀ value, f.find? variableId = some value →
    value.data.length = 8 ∧ ∀ b ∈ value.data, IsBoolean b

/-- The image a change is made to: the one kept, or that of the defaults. -/
def base (f : Simulated) : List UInt8 :=
  (f.contents variableId).getD (List.replicate 8 1)

/-- What an accepted change leaves: the block is replaced in the variable and
    in the current configuration, and can be extracted from it. -/
structure Changed (f : Simulated) (request : String) (data : List UInt8) (block : Block)
    (t : Turn) (s : Session Simulated) : Prop where
  delivered : t.reply = .config (.ok s.store.current)
  stored : s.backing.find? variableId = some ⟨attributes, s.store.current.toBytes⟩
  image : s.store.current.toBytes = Bytes.splice (base f) block.offset.toNat data
  others : ∀ id, id ≠ variableId → s.backing.find? id = f.find? id
  extracts : ∀ room, data.length ≤ room → s.store.extract (some request) room = .ok data

theorem check_eq_ok_iff (request : String) :
    Header.check request = .ok () ↔ Header.isAddressed request = true := by
  unfold Header.check
  by_cases h : Header.isAddressed request = true
  · simp [h]
  · simp [h]

-- What is read of a ready variable is what changes are made to.
theorem reading_ready (f : Simulated) (h : IsReady f) :
    ∃ stored : Option CpuSet, reading (f.answer variableId maxCpus) = .ok stored ∧
      (stored.getD CpuSet.allEnabled).toBytes = base f := by
  unfold base
  cases hf : f.find? variableId with
  | none =>
      refine ⟨none, reading_answer_eq_none f hf, ?_⟩
      rw [Simulated.contents, hf]
      exact CpuSet.toBytes_allEnabled
  | some value =>
      rcases h value hf with ⟨hlen, hall⟩
      rcases CpuSet.exists_toBytes value.data hlen hall with ⟨config, hconfig⟩
      have hc : f.contents variableId = some config.toBytes := by
        rw [Simulated.contents, hf, hconfig, Option.map_some]
      exact ⟨some config, (reading_answer_eq_some_iff f config).mpr hc, by rw [hc]; rfl⟩

theorem length_base (f : Simulated) (h : IsReady f) : (base f).length = 8 := by
  rcases reading_ready f h with ⟨stored, _, hbase⟩
  rw [← hbase]
  exact CpuSet.length_toBytes _

/-- A change that is accepted applies to every configuration. -/
theorem Accepts.apply {request : String} {data : List UInt8} {block : Block}
    (h : Accepts request data block) (config : CpuSet) :
    ∃ config', config.apply block data = .ok config' ∧
      config'.toBytes = Bytes.splice config.toBytes block.offset.toNat data :=
  config.exists_apply block data h.inside h.length h.booleans

/-- The replaced block is what a request for it gets. -/
theorem Accepts.extract {request : String} {data : List UInt8} {block : Block}
    (h : Accepts request data block) (image : List UInt8) (s : Store)
    (himage : image.length = 8)
    (hs : s.current.toBytes = Bytes.splice image block.offset.toNat data) (room : Nat)
    (hroom : data.length ≤ room) : s.extract (some request) room = .ok data := by
  have hinside := h.inside
  have hlength := h.length
  have hextract : s.current.extract block room = .ok data := by
    rw [CpuSet.extract_eq_ok_iff, hs, ← hlength,
      Bytes.take_drop_splice _ _ _ (by omega)]
    exact ⟨hlength ▸ hinside, hroom, rfl⟩
  have hcheck := (check_eq_ok_iff request).mpr h.addressed
  simp only [Store.extract, hcheck, h.parsed]
  exact hextract

/-- Changes of blocks without a common byte give the same image in either
    order. -/
theorem Accepts.comm {request request' : String} {data data' : List UInt8} {block block' : Block}
    (h : Accepts request data block) (h' : Accepts request' data' block') (image : List UInt8)
    (himage : image.length = 8) (apart : ∀ i, ¬ (block.Covers i ∧ block'.Covers i)) :
    Bytes.splice (Bytes.splice image block.offset.toNat data) block'.offset.toNat data' =
      Bytes.splice (Bytes.splice image block'.offset.toNat data') block.offset.toNat data := by
  refine Bytes.splice_comm _ _ _ _ _ ?_ ?_ ?_
  · rw [h.length, himage]
    exact h.inside
  · rw [h'.length, himage]
    exact h'.inside
  · intro i
    rw [h.length, h'.length]
    exact apart i

namespace Session

/-- A change that is made is an accepted one, whatever the variables answer. -/
theorem accepts_of_route {σ : Type} (machine : Machine Variables.interface σ) (s : Session σ)
    (request : String) (data : List UInt8) (config : CpuSet)
    (h : (s.call machine (.route request data)).1.reply = .config (.ok config)) :
    ∃ block, Accepts request data block := by
  rcases s.call_route machine request data with ⟨events, outcome, _, heq, hrouting, _⟩
  rw [heq] at h
  cases h
  cases hrouting with
  | changed answer block stored changed _ hcheck hblock happly rest _ _ =>
      rcases (CpuSet.apply_eq_ok_iff _ _ _ _).mp happly with ⟨hinside, hlength, hall, _⟩
      exact ⟨block, (check_eq_ok_iff request).mp hcheck, hblock, hinside, hlength, hall⟩

/-- An accepted change is made, and the variables are as good as before. -/
theorem changed_of_accepts (f : Simulated) (hf : f.IsFaithful) (hready : IsReady f)
    (store : Store) (request : String) (data : List UInt8) (block : Block)
    (h : Accepts request data block) :
    ∃ t s, (⟨store, f⟩ : Session Simulated).call variableStore (.route request data) = (t, s) ∧
      Changed f request data block t s ∧ s.backing.IsFaithful ∧ IsReady s.backing := by
  rcases call_route variableStore ⟨store, f⟩ request data with
    ⟨events, outcome, g, heq, hrouting, hm⟩
  refine ⟨_, _, heq, ?_⟩
  -- What the read delivers and what becomes of it are known beforehand. Every
  -- way that ends early is at odds with one of the two.
  rcases reading_ready f hready with ⟨stored, hstored, hbase⟩
  rcases h.apply (stored.getD CpuSet.allEnabled) with ⟨config, happly, himage⟩
  rw [hbase] at himage
  cases hrouting with
  | refused cause hrefused =>
      exact absurd h.parsed (hrefused block ((check_eq_ok_iff request).mpr h.addressed))
  | unread answer cause hunread =>
      rcases replies_read_faithful f g _ answer hf hm with ⟨rfl, _⟩
      rw [hstored] at hunread
      cases hunread
  | rejected answer block' stored' cause hread hblock hrejected =>
      rcases replies_read_faithful f g _ answer hf hm with ⟨rfl, _⟩
      rw [hstored] at hread
      rw [h.parsed] at hblock
      cases hread
      cases hblock
      rw [happly] at hrejected
      cases hrejected
  | changed answer block' stored' config' hread _ hblock hchanged rest _ hsaving =>
      rcases replies_read_faithful f g _ answer hf hm with ⟨rfl, g₁, hg₁, hm₁, hsame⟩
      rw [hstored] at hread
      rw [h.parsed] at hblock
      cases hread
      cases hblock
      rw [happly] at hchanged
      cases hchanged
      cases hsaving with
      | refused cause =>
          rcases replies_write_faithful g₁ g _ config _ hg₁ hm₁ with ⟨hok, _⟩
          cases hok
      | stored level message =>
          rcases replies_write_faithful g₁ g _ config _ hg₁ hm₁ with ⟨_, g₂, hg₂, hm₂, hput⟩
          cases replies_say g₂ g _ level message hm₂
          -- Of the three events only the write changed a variable.
          have hfind : ∀ id, g.find? id =
              if id = variableId then some ⟨attributes, config.toBytes⟩ else f.find? id := by
            intro id
            rw [find?_congr _ g id hput, Simulated.find?_put, find?_congr f g₁ id hsame]
          have hheld := hfind variableId
          rw [if_pos rfl] at hheld
          refine ⟨⟨rfl, hheld, himage, ?_, ?_⟩, hg₂, ?_⟩
          · intro id hid
            rw [hfind id, if_neg hid]
          · exact h.extract (base f) _ (length_base f hready) himage
          · intro value hvalue
            rw [hheld] at hvalue
            cases hvalue
            exact ⟨config.length_toBytes, config.isBoolean_of_mem_toBytes⟩

-- Two accepted changes, one after the other. The first leaves variables that
-- are ready and hold its image, so the second is made to that image.
theorem changed_twice (f : Simulated) (hf : f.IsFaithful) (hready : IsReady f) (store : Store)
    (request request' : String) (data data' : List UInt8) (block block' : Block)
    (h : Accepts request data block) (h' : Accepts request' data' block') :
    ∃ turns s, (⟨store, f⟩ : Session Simulated).calls variableStore
        [.route request data, .route request' data'] = (turns, s) ∧
      turns.all Turn.delivered = true ∧
      s.store.current.toBytes =
        Bytes.splice (Bytes.splice (base f) block.offset.toNat data) block'.offset.toNat data' ∧
      ∀ id, s.backing.find? id =
        if id = variableId then some ⟨attributes, s.store.current.toBytes⟩ else f.find? id := by
  rcases changed_of_accepts f hf hready store request data block h with
    ⟨t, s, heq, hchanged, hfaithful, hstill⟩
  rcases changed_of_accepts s.backing hfaithful hstill s.store request' data' block' h' with
    ⟨t', s', heq', hchanged', _, _⟩
  refine ⟨[t, t'], s', ?_, ?_, ?_, ?_⟩
  · simp only [calls, heq, heq']
  · simp [Turn.delivered, hchanged.delivered, hchanged'.delivered]
  · have hbase : base s.backing = s.store.current.toBytes := by
      rw [base, Simulated.contents, hchanged.stored, Option.map_some, Option.getD_some]
    rw [hchanged'.image, hbase, hchanged.image]
  · intro id
    by_cases hid : id = variableId
    · rw [if_pos hid, hid, hchanged'.stored]
    · rw [if_neg hid, hchanged'.others id hid, hchanged.others id hid]

/-- Over variables that work, and whatever the store has in its copy: exactly
    the accepted changes are made, each replaces its block in what is kept and
    nothing else, and changes of blocks without a common byte can be made in
    either order. -/
theorem route_replaces_block (f : Simulated) (hf : f.IsFaithful) (hready : IsReady f)
    (store : Store) :
    (∀ request data,
      (∃ config, ((⟨store, f⟩ : Session Simulated).call variableStore
          (.route request data)).1.reply = .config (.ok config)) ↔
        ∃ block, Accepts request data block) ∧
    (∀ request data block, Accepts request data block →
      Changed f request data block
        ((⟨store, f⟩ : Session Simulated).call variableStore (.route request data)).1
        ((⟨store, f⟩ : Session Simulated).call variableStore (.route request data)).2) ∧
    ∀ request request' data data' block block',
      Accepts request data block → Accepts request' data' block' →
      (∀ i, ¬ (block.Covers i ∧ block'.Covers i)) →
      ∃ turns turns' s s',
        (⟨store, f⟩ : Session Simulated).calls variableStore
          [.route request data, .route request' data'] = (turns, s) ∧
        (⟨store, f⟩ : Session Simulated).calls variableStore
          [.route request' data', .route request data] = (turns', s') ∧
        turns.all Turn.delivered = true ∧ turns'.all Turn.delivered = true ∧
        s.store = s'.store ∧ ∀ id, s.backing.find? id = s'.backing.find? id := by
  refine ⟨fun request data => ⟨?_, ?_⟩, ?_, ?_⟩
  · rintro ⟨config, hreply⟩
    exact accepts_of_route variableStore _ request data config hreply
  · rintro ⟨block, h⟩
    rcases changed_of_accepts f hf hready store request data block h with ⟨t, s, heq, hc, _, _⟩
    rw [heq]
    exact ⟨_, hc.delivered⟩
  · intro request data block h
    rcases changed_of_accepts f hf hready store request data block h with ⟨t, s, heq, hc, _, _⟩
    rw [heq]
    exact hc
  · intro request request' data data' block block' h h' apart
    rcases changed_twice f hf hready store request request' data data' block block' h h' with
      ⟨turns, s, heq, hall, himage, hfind⟩
    rcases changed_twice f hf hready store request' request data' data block' block h' h with
      ⟨turns', s', heq', hall', himage', hfind'⟩
    -- The images agree, and with them the configurations and the variables.
    have hsame : s.store.current = s'.store.current := by
      refine CpuSet.toBytes_inj _ _ ?_
      rw [himage, himage']
      exact h.comm h' (base f) (length_base f hready) apart
    refine ⟨turns, turns', s, s', heq, heq', hall, hall', congrArg Store.mk hsame, fun id => ?_⟩
    rw [hfind, hfind', hsame]

/-- A request for some CPUs of the configuration, given by the end of its text. -/
def requestFor (span : String) : String :=
  "GUID=d53776f925a7bd4da180d9554920545d&" ++ span

theorem route_replaces_block_stale :
    Simulated.empty.IsFaithful ∧ IsReady Simulated.empty ∧
      Accepts (requestFor "OFFSET=2&WIDTH=2") [0, 0] ⟨2, 2⟩ ∧
      Accepts (requestFor "OFFSET=4&WIDTH=1") [0] ⟨4, 1⟩ ∧
      ((⟨⟨.allDisabled⟩, .empty⟩ : Session Simulated).call variableStore
        (.route (requestFor "OFFSET=2&WIDTH=2") [0, 0])).2.store.current.toBytes =
          [1, 1, 0, 0, 1, 1, 1, 1] ∧
      ∃ turns turns' s s',
        (⟨⟨.allDisabled⟩, .empty⟩ : Session Simulated).calls variableStore
          [.route (requestFor "OFFSET=2&WIDTH=2") [0, 0],
            .route (requestFor "OFFSET=4&WIDTH=1") [0]] = (turns, s) ∧
        (⟨⟨.allDisabled⟩, .empty⟩ : Session Simulated).calls variableStore
          [.route (requestFor "OFFSET=4&WIDTH=1") [0],
            .route (requestFor "OFFSET=2&WIDTH=2") [0, 0]] = (turns', s') ∧
        s.store = s'.store := by
  have hfaithful : Simulated.empty.IsFaithful := ⟨by decide, by decide⟩
  have hready : IsReady Simulated.empty := fun value h => by cases h
  have haccepts : Accepts (requestFor "OFFSET=2&WIDTH=2") [0, 0] ⟨2, 2⟩ :=
    ⟨by decide, rfl, by decide, rfl, by simp [IsBoolean]⟩
  have haccepts' : Accepts (requestFor "OFFSET=4&WIDTH=1") [0] ⟨4, 1⟩ :=
    ⟨by decide, rfl, by decide, rfl, by simp [IsBoolean]⟩
  rcases route_replaces_block .empty hfaithful hready ⟨.allDisabled⟩ with ⟨_, hchanges, hcommutes⟩
  refine ⟨hfaithful, hready, haccepts, haccepts', ?_, ?_⟩
  · rw [(hchanges _ _ _ haccepts).image]
    decide
  · -- The blocks have no common byte.
    rcases hcommutes _ _ _ _ _ _ haccepts haccepts' (by
      rintro i ⟨⟨_, hbefore⟩, ⟨hfrom, _⟩⟩
      exact absurd (Nat.lt_of_le_of_lt hfrom hbefore) (by decide)) with
      ⟨turns, turns', s, s', heq, heq', _, _, hsame, _⟩
    exact ⟨turns, turns', s, s', heq, heq', hsame⟩

end Session

end Config

end BoardSupport
