import NodeScrape.Kubelet.Url
import NodeScrape.Proofs.List.Places
import NodeScrape.Proofs.Net.Ipv6

/-!
# Addresses read back

A reader of the address of a summary parts its authority from the scheme and from the path, and the
host from the port. It gives back the host and the port that the address was made of, where the host
is an address of version 6 or holds none of the characters that part the places of an address.
-/

namespace NodeScrape.Kubelet

open Text

/-! ## The reader -/

/-- What stands behind the mark that ends the scheme of an address. -/
def behindScheme? : List Char → Option (List Char)
  | [] => none
  | ':' :: '/' :: '/' :: rest => some rest
  | _ :: rest => behindScheme? rest

/-- The characters that end an authority. -/
def isAuthorityEnd (c : Char) : Bool := c = '/' || c = '?' || c = '#'

/-- Parts the host and the port of an authority, at the colon behind the bracket that closes the
host or else at the only colon. -/
def splitAuthority? : List Char → Option (List Char × List Char)
  | '[' :: text => match text.dropWhile (· ≠ ']') with
    | ']' :: ':' :: port => some (text.takeWhile (· ≠ ']'), port)
    | _ => none
  | text => match text.dropWhile (· ≠ ':') with
    | ':' :: port => if ':' ∈ port then none else some (text.takeWhile (· ≠ ':'), port)
    | _ => none

/-- Reads the host and the port of an address. -/
def readAddress? (url : List Char) : Option (String × UInt16) := do
  let rest ← behindScheme? url
  let (host, port) ← splitAuthority? (rest.takeWhile fun c => !isAuthorityEnd c)
  match scanNumber 10 UInt16.size port with
  | some (port, []) => some (String.ofList host, UInt16.ofNat port)
  | _ => none

/-- The characters that part the places of an address. -/
def delimiters : List Char := [':', '/', '?', '#', '@', '[', ']']

/-- A host that can be told from the other places of an address. -/
def IsHost (host : String) : Prop :=
  Net.IsIpv6Text host.toList ∨ ∀ c ∈ host.toList, c ∉ delimiters

variable {scheme host : String} {port : UInt16} {text rest : List Char}

theorem behindScheme?_append (hscheme : ':' ∉ text) (rest : List Char) :
    behindScheme? (text ++ rest) = behindScheme? rest := by
  induction text with
  | nil => rfl
  | cons c text ih =>
    obtain ⟨hc, hmore⟩ := not_or.mp (mt List.mem_cons.mpr hscheme)
    rw [List.cons_append, behindScheme?, ih hmore]
    rintro _ rfl
    exact absurd rfl hc

/-! ## The places of an address -/

theorem toList_summaryUrl (scheme host : String) (port : UInt16) :
    (summaryUrl scheme host port).toList = scheme.toList ++ ':' :: '/' :: '/' ::
      ((authority host port).toList ++ summaryTarget.toList) := by
  simp [summaryUrl, String.toList_append]

theorem hostText_of_isIpv6Text (h : Net.IsIpv6Text host.toList) :
    hostText host = "[" ++ host ++ "]" :=
  if_pos ((Net.Ipv6.isSome_parse?_iff host).mpr h)

theorem hostText_of_not_isIpv6Text (h : ¬ Net.IsIpv6Text host.toList) : hostText host = host :=
  if_neg (mt (Net.Ipv6.isSome_parse?_iff host).mp h)

theorem bracketed_ne (host : String) : "[" ++ host ++ "]" ≠ host := by
  intro heq
  have hlength := congrArg (fun text => text.toList.length) heq
  simp [String.toList_append] at hlength
  omega

theorem hostText_eq_bracketed_iff :
    hostText host = "[" ++ host ++ "]" ↔ Net.IsIpv6Text host.toList := by
  constructor
  · intro h
    by_contra hip
    rw [hostText_of_not_isIpv6Text hip] at h
    exact bracketed_ne host h.symm
  · exact hostText_of_isIpv6Text

theorem hostText_eq_iff : hostText host = host ↔ ¬ Net.IsIpv6Text host.toList := by
  constructor
  · intro h hip
    rw [hostText_of_isIpv6Text hip] at h
    exact bracketed_ne host h
  · exact hostText_of_not_isIpv6Text

/-- The address of a summary shows a text as its host exactly if the host is shown so. -/
theorem summaryUrl_eq_iff (scheme host : String) (port : UInt16) (shown : String) :
    summaryUrl scheme host port =
        scheme ++ "://" ++ (shown ++ ":" ++ Nat.repr port.toNat) ++ summaryTarget ↔
      hostText host = shown := by
  constructor
  · intro h
    rw [← String.toList_inj] at h ⊢
    simpa [summaryUrl, authority] using h
  · rintro rfl
    rfl

theorem toList_authority_of_isIpv6Text (h : Net.IsIpv6Text host.toList) (port : UInt16) :
    (authority host port).toList =
      '[' :: (host.toList ++ ']' :: ':' :: Nat.toDigits 10 port.toNat) := by
  simp [authority, hostText_of_isIpv6Text h, String.toList_append, Nat.toList_repr]

theorem toList_authority_of_not_isIpv6Text (h : ¬ Net.IsIpv6Text host.toList) (port : UInt16) :
    (authority host port).toList = host.toList ++ ':' :: Nat.toDigits 10 port.toNat := by
  simp [authority, hostText_of_not_isIpv6Text h, String.toList_append, Nat.toList_repr]

/-- No character that parts the places of an address but the colon stands in an address of version
6. -/
theorem not_mem_delimiters (h : Net.IsIpv6Text text) {c : Char} (hc : c ∈ text)
    (hcolon : c ≠ ':') : c ∉ delimiters := by
  intro hmem
  have hall : delimiters.all (fun d => d = ':' || !decide (Net.IsAddressChar d)) = true := by decide
  have hnone := List.all_eq_true.mp hall c hmem
  simp [hcolon, h.isAddressChar c hc] at hnone

theorem mem_delimiters_of_isAuthorityEnd {c : Char} (hend : isAuthorityEnd c = true) :
    c ∈ delimiters := by
  simp only [isAuthorityEnd, Bool.or_eq_true, decide_eq_true_iff] at hend
  rcases hend with (rfl | rfl) | rfl <;> decide

/-- No authority is ended by one of its own characters. -/
theorem not_isAuthorityEnd (h : IsHost host) (port : UInt16) :
    ∀ c ∈ (authority host port).toList, isAuthorityEnd c = false := by
  have hports : ∀ c ∈ Nat.toDigits 10 port.toNat, isAuthorityEnd c = false := by
    intro c hc
    have hdigit := isDigit_toDigits c hc
    have hall : delimiters.all (!·.isDigit) = true := by decide
    by_contra hend
    have hnone := List.all_eq_true.mp hall c
      (mem_delimiters_of_isAuthorityEnd (Bool.not_eq_false _ ▸ hend))
    simp [hdigit] at hnone
  have hhosts : ∀ c ∈ host.toList, isAuthorityEnd c = false := by
    intro c hc
    by_contra hend
    have hend : isAuthorityEnd c = true := Bool.not_eq_false _ ▸ hend
    rcases h with h | h
    · refine not_mem_delimiters h hc ?_ (mem_delimiters_of_isAuthorityEnd hend)
      rintro rfl
      cases hend
    · exact h c hc (mem_delimiters_of_isAuthorityEnd hend)
  by_cases hip : Net.IsIpv6Text host.toList
  · rw [toList_authority_of_isIpv6Text hip]
    simp only [List.forall_mem_cons, List.forall_mem_append]
    exact ⟨rfl, hhosts, rfl, rfl, hports⟩
  · rw [toList_authority_of_not_isIpv6Text hip, List.forall_mem_append, List.forall_mem_cons]
    exact ⟨hhosts, rfl, hports⟩

/-! ## Hosts and ports -/

theorem splitAuthority?_bracketed (hhost : ']' ∉ text) (port : List Char) :
    splitAuthority? ('[' :: (text ++ ']' :: ':' :: port)) = some (text, port) := by
  obtain ⟨htake, hdrop⟩ := takeWhile_ne_append hhost (':' :: port)
  simp only [splitAuthority?, htake, hdrop]

theorem splitAuthority?_plain {port : List Char} (hcolon : ':' ∉ text) (hopen : '[' ∉ text)
    (hport : ':' ∉ port) : splitAuthority? (text ++ ':' :: port) = some (text, port) := by
  obtain ⟨htake, hdrop⟩ := takeWhile_ne_append hcolon port
  rw [splitAuthority?]
  · simp only [htake, hdrop, if_neg hport]
  · intro more hmore
    cases text with
    | nil => cases hmore
    | cons c text =>
      obtain ⟨rfl, -⟩ := List.cons.inj hmore
      exact hopen List.mem_cons_self

/-- An authority is parted into the host and the port that it was made of. -/
theorem splitAuthority?_authority (h : IsHost host) (port : UInt16) :
    splitAuthority? (authority host port).toList =
      some (host.toList, Nat.toDigits 10 port.toNat) := by
  by_cases hip : Net.IsIpv6Text host.toList
  · rw [toList_authority_of_isIpv6Text hip]
    exact splitAuthority?_bracketed
      (fun hc => not_mem_delimiters hip hc (by decide) (by decide)) _
  · have hplain := h.resolve_left hip
    rw [toList_authority_of_not_isIpv6Text hip]
    refine splitAuthority?_plain (fun hc => hplain _ hc (by decide))
      (fun hc => hplain _ hc (by decide)) fun hc => ?_
    have hdigit := isDigit_toDigits _ hc
    cases hdigit

/-- The host and the port are read back from behind the scheme. -/
theorem readAddress?_authority (h : IsHost host) (port : UInt16) :
    readAddress? (':' :: '/' :: '/' :: ((authority host port).toList ++ summaryTarget.toList)) =
      some (host, port) := by
  have hends : ∀ c ∈ (authority host port).toList, (!isAuthorityEnd c) = true := by
    intro c hc
    rw [not_isAuthorityEnd h port c hc]
    rfl
  have htake : ((authority host port).toList ++ summaryTarget.toList).takeWhile
      (fun c => !isAuthorityEnd c) = (authority host port).toList := by
    rw [List.takeWhile_append_of_pos hends]
    exact List.append_nil _
  have hport : scanNumber 10 UInt16.size (Nat.toDigits 10 port.toNat) = some (port.toNat, []) := by
    have hread := scanNumber_toDigits port.toNat_lt endsDigits_nil
    rwa [List.append_nil] at hread
  simp only [readAddress?, behindScheme?, htake, splitAuthority?_authority h, hport,
    Option.bind_eq_bind, Option.bind_some, String.ofList_toList, UInt16.ofNat_toNat]

/-- An address tells its scheme and its authority. -/
theorem eq_and_authority_eq_of_summaryUrl_eq {scheme' host' : String} {port' : UInt16}
    (h : IsHost host) (h' : IsHost host')
    (hurl : summaryUrl scheme host port = summaryUrl scheme' host' port') :
    scheme = scheme' ∧ authority host port = authority host' port' := by
  have hslash : ∀ {host port}, IsHost host → '/' ∉ (authority host port).toList := by
    intro host port h hmem
    cases not_isAuthorityEnd h port '/' hmem
  have hplaces :
      ((scheme.toList ++ [':', '/']) ++ '/' :: (authority host port).toList) ++
          summaryTarget.toList =
        ((scheme'.toList ++ [':', '/']) ++ '/' :: (authority host' port').toList) ++
          summaryTarget.toList := by
    simpa [toList_summaryUrl] using congrArg String.toList hurl
  obtain ⟨hscheme, hauthority⟩ := append_cons_inj_of_not_mem (hslash h) (hslash h')
    (List.append_cancel_right hplaces)
  exact ⟨String.toList_inj.mp (List.append_cancel_right hscheme), String.toList_inj.mp hauthority⟩

/-- An authority tells its host and its port. -/
theorem authority_inj {host' : String} {port' : UInt16} (h : IsHost host) (h' : IsHost host')
    (hauthority : authority host port = authority host' port') : host = host' ∧ port = port' := by
  have hread := readAddress?_authority h port
  rw [hauthority, readAddress?_authority h' port'] at hread
  obtain ⟨hhost, hport⟩ := Prod.mk.inj (Option.some.inj hread)
  exact ⟨hhost.symm, hport.symm⟩

/-- The address of a summary shows its host between brackets exactly if that is an address of
version 6, and as it is otherwise. For every scheme, the host and the port are read back from what
stands behind the scheme, and from the whole address if the scheme holds no colon. So no two
addresses are alike of which the scheme, the host or the port differ. -/
theorem summaryUrl_reads_back (scheme host : String) (port : UInt16) :
    (summaryUrl scheme host port =
        scheme ++ "://[" ++ host ++ "]:" ++ Nat.repr port.toNat ++ summaryTarget ↔
      Net.IsIpv6Text host.toList) ∧
    (summaryUrl scheme host port =
        scheme ++ "://" ++ host ++ ":" ++ Nat.repr port.toNat ++ summaryTarget ↔
      ¬ Net.IsIpv6Text host.toList) ∧
    (IsHost host →
      (∃ rest, (summaryUrl scheme host port).toList = scheme.toList ++ rest ∧
        readAddress? rest = some (host, port)) ∧
      (':' ∉ scheme.toList →
        readAddress? (summaryUrl scheme host port).toList = some (host, port)) ∧
      ∀ scheme' host' port', IsHost host' →
        summaryUrl scheme host port = summaryUrl scheme' host' port' →
          scheme = scheme' ∧ host = host' ∧ port = port') := by
  refine ⟨?bracketed, ?plain, fun h => ⟨?behind, ?whole, ?distinct⟩⟩
  case bracketed =>
    have hplaces : scheme ++ "://[" ++ host ++ "]:" ++ Nat.repr port.toNat ++ summaryTarget =
        scheme ++ "://" ++ ("[" ++ host ++ "]" ++ ":" ++ Nat.repr port.toNat) ++ summaryTarget := by
      rw [← String.toList_inj]
      simp
    rw [hplaces, summaryUrl_eq_iff, hostText_eq_bracketed_iff]
  case plain =>
    rw [← hostText_eq_iff, ← summaryUrl_eq_iff scheme host port host]
    simp only [String.append_assoc]
  case behind => exact ⟨_, toList_summaryUrl scheme host port, readAddress?_authority h port⟩
  case whole =>
    intro hscheme
    rw [toList_summaryUrl, readAddress?, behindScheme?_append hscheme]
    exact readAddress?_authority h port
  case distinct =>
    intro scheme' host' port' h' hurl
    obtain ⟨hscheme, hauthority⟩ := eq_and_authority_eq_of_summaryUrl_eq h h' hurl
    exact ⟨hscheme, authority_inj h h' hauthority⟩

/-- An address of the sixth version that ends in one of the fourth. -/
theorem summaryUrl_reads_back_embedded :
    IsHost "64:ff9b::10.0.0.7" ∧
      summaryUrl "https" "64:ff9b::10.0.0.7" 10250 =
        "https://[64:ff9b::10.0.0.7]:10250/stats/summary?only_cpu_and_memory=true" ∧
      readAddress? (summaryUrl "https" "64:ff9b::10.0.0.7" 10250).toList =
        some ("64:ff9b::10.0.0.7", 10250) := by
  have hip : Net.IsIpv6Text "64:ff9b::10.0.0.7".toList :=
    (Net.Ipv6.isSome_parse?_iff _).mp (by decide)
  obtain ⟨hbracketed, -, hread⟩ := summaryUrl_reads_back "https" "64:ff9b::10.0.0.7" 10250
  obtain ⟨-, hwhole, -⟩ := hread (.inl hip)
  exact ⟨.inl hip, hbracketed.mpr hip, hwhole (by decide)⟩

end NodeScrape.Kubelet
