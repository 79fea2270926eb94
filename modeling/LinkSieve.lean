import LinkSieve.Address.Ipv4
import LinkSieve.Address.Ipv6
import LinkSieve.Address.Server
import LinkSieve.Arguments
import LinkSieve.Base64
import LinkSieve.CommandLine
import LinkSieve.Decimal.Binary64
import LinkSieve.Decimal.Digits
import LinkSieve.Decimal.Reading
import LinkSieve.Decimal.Shortest
import LinkSieve.Document
import LinkSieve.Files.Path
import LinkSieve.Files.Tree
import LinkSieve.Json.Documents
import LinkSieve.Json.Numeral
import LinkSieve.Json.Printer
import LinkSieve.Json.Reading
import LinkSieve.Json.Token
import LinkSieve.Json.Value
import LinkSieve.Link.Dedup
import LinkSieve.Link.Dispatcher
import LinkSieve.Link.Draft
import LinkSieve.Link.Hysteria2
import LinkSieve.Link.Identity
import LinkSieve.Link.Rejection
import LinkSieve.Link.Shadowsocks
import LinkSieve.Link.ShareLink
import LinkSieve.Link.Trojan
import LinkSieve.Link.Vless
import LinkSieve.Link.Vmess
import LinkSieve.Main
import LinkSieve.Policy.Rule
import LinkSieve.Policy.RuleFile
import LinkSieve.Policy.RuleSet
import LinkSieve.Policy.Words
import LinkSieve.Proofs.Address.Ipv6
import LinkSieve.Proofs.Address.Name
import LinkSieve.Proofs.Address.Server
import LinkSieve.Proofs.Address.Size
import LinkSieve.Proofs.Base64
import LinkSieve.Proofs.Base64.Detection
import LinkSieve.Proofs.Decimal.Binary64
import LinkSieve.Proofs.Decimal.Digits
import LinkSieve.Proofs.Decimal.Places
import LinkSieve.Proofs.Decimal.Shortest
import LinkSieve.Proofs.Files.Tree
import LinkSieve.Proofs.Json.Numeral
import LinkSieve.Proofs.Json.Reading
import LinkSieve.Proofs.Json.Size
import LinkSieve.Proofs.Json.Token
import LinkSieve.Proofs.Json.Value
import LinkSieve.Proofs.Link.Assembly
import LinkSieve.Proofs.Link.Canonical
import LinkSieve.Proofs.Link.Dedup
import LinkSieve.Proofs.Link.Dispatcher
import LinkSieve.Proofs.Link.Filtering
import LinkSieve.Proofs.Link.Growth
import LinkSieve.Proofs.Link.Hysteria2
import LinkSieve.Proofs.Link.HysteriaSchemes
import LinkSieve.Proofs.Link.Identity
import LinkSieve.Proofs.Link.OwnScheme
import LinkSieve.Proofs.Link.PortRange
import LinkSieve.Proofs.Link.Precedence
import LinkSieve.Proofs.Link.QueryOrder
import LinkSieve.Proofs.Link.Rejection
import LinkSieve.Proofs.Link.Respelling
import LinkSieve.Proofs.Link.Rewriting
import LinkSieve.Proofs.Link.RoundTrip
import LinkSieve.Proofs.Link.Screening
import LinkSieve.Proofs.Link.Server
import LinkSieve.Proofs.Link.Shadowsocks
import LinkSieve.Proofs.Link.ShadowsocksAlphabets
import LinkSieve.Proofs.Link.ShadowsocksForms
import LinkSieve.Proofs.Link.ShareLink
import LinkSieve.Proofs.Link.Trojan
import LinkSieve.Proofs.Link.UserName
import LinkSieve.Proofs.Link.Vless
import LinkSieve.Proofs.Link.Vmess
import LinkSieve.Proofs.Link.VmessNumber
import LinkSieve.Proofs.Link.VmessPort
import LinkSieve.Proofs.Outcome
import LinkSieve.Proofs.Policy.Rule
import LinkSieve.Proofs.Policy.RuleFile
import LinkSieve.Proofs.Policy.Verdict
import LinkSieve.Proofs.Policy.Wording
import LinkSieve.Proofs.Policy.Words
import LinkSieve.Proofs.Run.Actions
import LinkSieve.Proofs.Run.Files
import LinkSieve.Proofs.Run.Output
import LinkSieve.Proofs.Subscription.Detection
import LinkSieve.Proofs.Subscription.RejectedText
import LinkSieve.Proofs.Subscription.Report
import LinkSieve.Proofs.Subscription.Wrapping
import LinkSieve.Proofs.Table
import LinkSieve.Proofs.Text.Label
import LinkSieve.Proofs.Text.Lowercase
import LinkSieve.Proofs.Text.Percent
import LinkSieve.Proofs.Text.Quoted
import LinkSieve.Proofs.Text.Settling
import LinkSieve.Proofs.Text.Size
import LinkSieve.Proofs.Text.Split
import LinkSieve.Proofs.Text.Utf8
import LinkSieve.Proofs.Url.Delimited
import LinkSieve.Proofs.Url.Escaping
import LinkSieve.Proofs.Url.LetterCase
import LinkSieve.Proofs.Url.Normal
import LinkSieve.Proofs.Url.Parts
import LinkSieve.Proofs.Url.Path
import LinkSieve.Proofs.Url.Query
import LinkSieve.Proofs.Url.QueryOrder
import LinkSieve.Proofs.Url.Reading
import LinkSieve.Proofs.Url.Server
import LinkSieve.Proofs.Url.Size
import LinkSieve.Proofs.Url.Spelling
import LinkSieve.Run.Failure
import LinkSieve.Run.Filtering
import LinkSieve.Run.Surroundings
import LinkSieve.Settings
import LinkSieve.Subscription.Body
import LinkSieve.Subscription.Report
import LinkSieve.Table
import LinkSieve.Text.Blank
import LinkSieve.Text.CaseTable
import LinkSieve.Text.HiddenTable
import LinkSieve.Text.Label
import LinkSieve.Text.Lowercase
import LinkSieve.Text.Percent
import LinkSieve.Text.Quoted
import LinkSieve.Text.Split
import LinkSieve.Text.Utf8
import LinkSieve.Toml.Reading
import LinkSieve.Toml.Tree
import LinkSieve.Toml.Word
import LinkSieve.Url.Authority
import LinkSieve.Url.Error
import LinkSieve.Url.Escaped
import LinkSieve.Url.Host
import LinkSieve.Url.Path
import LinkSieve.Url.Punycode
import LinkSieve.Url.Query
import LinkSieve.Url.Reading
import LinkSieve.Yaml.Cursor
import LinkSieve.Yaml.Node
import LinkSieve.Yaml.Reading
import LinkSieve.Yaml.ScalarText
import LinkSieve.Yaml.Token
