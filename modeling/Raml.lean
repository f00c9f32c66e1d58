import Raml.Main
import Raml.Proofs.Api.Headers
import Raml.Proofs.Api.KeptSchemas
import Raml.Proofs.Api.ParseFaults
import Raml.Proofs.DataType.OptionalProperties
import Raml.Proofs.Declaration.MergedChains
import Raml.Proofs.Declaration.WrittenBack
import Raml.Proofs.Parameter.DerivedPatterns
import Raml.Proofs.Registry.Confluence
import Raml.Proofs.Registry.KeptDeclarations
import Raml.Proofs.Registry.Resolving
import Raml.Proofs.Resource.LiteralUris
import Raml.Proofs.Resource.SecuredBy
import Raml.Proofs.Resource.SplicedPatterns
import Raml.Proofs.Resource.Unannotated
import Raml.Proofs.Validation.Multiples
import Raml.Proofs.Validation.Narrowing
import Raml.Proofs.Validation.OffendingNames
import Raml.Registry.Session
