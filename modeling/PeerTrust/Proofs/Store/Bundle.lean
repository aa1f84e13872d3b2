/-
  `Proofs.Store.Bundle` — one bundle, read as a store and as a certificate.

  A bundle in a file gives a root set exactly if one of its certificates is complete, and the first
  complete one is the first root. The same octets, handed over as a certificate, present that first
  root exactly if the bundle also announces a certificate by its first label: without that line
  they are not looked at as armor. So a bundle whose certificates all have the other label is a
  store of roots without being one of them.
-/
import PeerTrust.Proofs.RootSet

namespace PeerTrust

open Traced

/-! ### Bundles as certificates -/

namespace Value

variable {b : Armor.Bundle} {c : Certificate}

theorem presentedCertificate_bundle (h : b.Announces) (hfirst : b.certificates.head? = some c) :
    (Value.bytes b.content).presentedCertificate = .ok c :=
  certificateOfText_eq_ok_iff.mpr ⟨rfl, by rw [b.certificate_of_announces h, hfirst]; rfl⟩

/-- **A bundle is refused** if it announces no certificate or has none that is complete. -/
theorem presentedCertificate_bundle_of_none (h : b.Announces → b.certificates = []) :
    (Value.bytes b.content).presentedCertificate = .error .unreadableCertificate := by
  have hnone : b.content.certificate = .error .malformed := by
    by_cases hannounces : b.Announces
    · rw [b.certificate_of_announces hannounces, h hannounces]
      rfl
    · exact b.certificate_of_not_announces hannounces
  show certificateOfText true b.content = _
  rw [certificateOfText, hnone]
  rfl

end Value

/-! ### Bundles as stores -/

namespace RootSet

variable {files : FileSystem} {path : String} {password : Option String} {b : Armor.Bundle}
  {c : Certificate} {cs : List Certificate}

/-- **A bundle is a store of roots** exactly if it has a complete certificate. -/
theorem readStore_bundle (husable : Path.IsUsable path)
    (hfile : files.read (Path.ofText path) = .ok b.content) :
    readStore files path .pem password =
      if b.certificates.isEmpty then
        .error (.storeLoad ⟨.str path, .str StoreType.pem.text, .unreadable⟩)
      else .ok b.certificates := by
  have hparse : StoreType.parse .pem password b.content =
      if b.certificates.isEmpty then .error .unreadableCertificate else .ok b.certificates := by
    rw [StoreType.parse, b.armoredCertificates_content]
    cases b.certificates <;> rfl
  rw [readStore_of_usable husable, hfile]
  simp only [hparse]
  cases b.certificates <;> rfl

/-- **The two readers of a bundle agree if it announces a certificate, and only then.** A bundle
without a complete certificate is refused by both. From any other bundle the store is loaded, with
its certificates in their order and the first one in front. The octets of the bundle present that
certificate, and so are a member of the set, exactly if the first line of a block of the label
`CERTIFICATE` stands in it; otherwise they present nothing and are no member. -/
theorem load_bundle {env : Environment} {pathValue typeValue passwordValue : Value}
    (hpath : pathArgument env pathValue = .ok path)
    (hpassword : passwordArgument passwordValue = .ok password)
    (htype : typeArgument? typeValue = some .pem) (husable : Path.IsUsable path)
    (hfile : env.files.read (Path.ofText path) = .ok b.content) :
    (b.certificates = [] →
      (load env pathValue typeValue passwordValue).outcome =
        .error (.storeLoad ⟨.str path, .str StoreType.pem.text, .unreadable⟩) ∧
      (Value.bytes b.content).presentedCertificate = .error .unreadableCertificate) ∧
    (∀ c cs, b.certificates = c :: cs →
      ∃ roots, (load env pathValue typeValue passwordValue).outcome = .ok roots ∧
        roots.ListsFirsts (c :: cs) ∧ roots.anchors.head? = some c ∧
        (b.Announces → (Value.bytes b.content).presentedCertificate = .ok c ∧
          roots.containsValue (.bytes b.content) = .ok true) ∧
        (¬b.Announces →
          (Value.bytes b.content).presentedCertificate = .error .unreadableCertificate ∧
          roots.containsValue (.bytes b.content) = .ok false)) := by
  have hload : (load env pathValue typeValue passwordValue).outcome =
      (loadFrom env.files path .pem password).outcome := by
    rw [outcome_load hpath hpassword, htype]
  rw [hload, outcome_loadFrom, readStore_bundle husable hfile]
  constructor
  · intro hnone
    rw [hnone]
    exact ⟨rfl, Value.presentedCertificate_bundle_of_none fun _ => hnone⟩
  · intro c cs hcerts
    have hlists := listsFirsts_ofList (some (Path.ofText path).text) (c :: cs)
    have hfirst : b.certificates.head? = some c := by rw [hcerts]; rfl
    rw [hcerts]
    refine ⟨_, rfl, hlists, hlists.head?_eq, fun hannounces => ?_, fun hsilent => ?_⟩
    · have hpresents := Value.presentedCertificate_bundle hannounces hfirst
      refine ⟨hpresents, ?_⟩
      exact (hlists.containsValue_eq_ok_true_iff _).mpr ⟨c, List.mem_cons_self, hpresents⟩
    · have hrefused := Value.presentedCertificate_bundle_of_none fun h => absurd h hsilent
      exact ⟨hrefused, (containsValue_of_refused hrefused).1 nofun⟩

end RootSet

/-! ### Bundles for instances -/

namespace Sample

open Armor

/-- A remark, the leaf under the second label of certificates, and a key. -/
def mixedParts : List Part := [
  .line "Roots of the test" (by decide +kernel),
  .certificate (.around "X509 CERTIFICATE" (by decide +kernel) (.armored leaf)) leaf
    (List.mem_cons_of_mem _ List.mem_cons_self)
    (Frame.carries_around (by decide +kernel) (by decide +kernel) rfl),
  .other (.around "PRIVATE KEY" (by decide +kernel) (.armoredKey "leaf")) [.armoredKey "leaf"]
    (by decide +kernel) (Frame.carries_around (by decide +kernel) (by decide +kernel) rfl)]

end Sample

namespace RootSet

/-- A certificate under the second label is loaded as a root, and its bundle is no member. It is
one as soon as the cut block of another certificate follows; that block alone is refused. -/
theorem load_bundle_of_second_label :
    let silent : Armor.Bundle := ⟨Sample.mixedParts, .whole⟩
    let announced : Armor.Bundle := ⟨Sample.mixedParts, .ofUnended Sample.root⟩
    let cut : Armor.Bundle := ⟨[], .ofUnended Sample.root⟩
    let loaded (b : Armor.Bundle) :=
      (load (Sample.withFile b.content) (.str "roots.pem") (.str "PEM") .null).outcome
    let presented (b : Armor.Bundle) := (Value.bytes b.content).presentedCertificate
    (∃ roots, loaded silent = .ok roots ∧ roots.anchors.head? = some Sample.leaf ∧
      presented silent = .error .unreadableCertificate ∧
      roots.containsValue (.bytes silent.content) = .ok false) ∧
    (∃ roots, loaded announced = .ok roots ∧ presented announced = .ok Sample.leaf ∧
      roots.containsValue (.bytes announced.content) = .ok true) ∧
    loaded cut = .error (.storeLoad ⟨.str "roots.pem", .str "PEM", .unreadable⟩) ∧
      presented cut = .error .unreadableCertificate := by
  intro silent announced cut loaded presented
  have hfile : ∀ content : Content,
      (Sample.withFile content).files.read (Path.ofText "roots.pem") = .ok content :=
    fun _ => rfl
  have hpath : ∀ content : Content,
      pathArgument (Sample.withFile content) (.str "roots.pem") = .ok "roots.pem" :=
    fun _ => rfl
  have hpassword : passwordArgument .null = .ok none := rfl
  have husable : Path.IsUsable "roots.pem" := by decide +kernel
  have htype : typeArgument? (.str "PEM") = some .pem := by decide +kernel
  have hsilent : ¬silent.Announces := by
    simp [silent, Armor.Bundle.Announces, Sample.mixedParts, Armor.Part.Announces,
      Armor.Ending.Announces]
    decide +kernel
  have hannounced : announced.Announces := .inr ⟨rfl, List.prefix_append _ _⟩
  obtain ⟨-, hsecond⟩ := load_bundle (b := silent) (hpath _) hpassword htype husable (hfile _)
  obtain ⟨-, hagree⟩ := load_bundle (b := announced) (hpath _) hpassword htype husable (hfile _)
  obtain ⟨hrefused, -⟩ := load_bundle (b := cut) (hpath _) hpassword htype husable (hfile _)
  obtain ⟨roots, hload, -, hfirst, -, hdisagree⟩ := hsecond Sample.leaf [] rfl
  obtain ⟨others, hothers, -, -, hmember, -⟩ := hagree Sample.leaf [] rfl
  obtain ⟨hrefuses, hmember'⟩ := hdisagree hsilent
  exact ⟨⟨roots, hload, hfirst, hrefuses, hmember'⟩, ⟨others, hothers, hmember hannounced⟩,
    hrefused rfl⟩

end RootSet
end PeerTrust
