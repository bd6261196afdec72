/-!
# Standard templates

The templates that are there from the start: one for each container and one for
each resource. In the lines below `⟦` and `⟧` stand for braces.
-/

namespace YangPartition.Template.Standard

/-- A text of lines, with braces for the brackets that stand for them. -/
def ofLines (lines : List String) : String :=
  String.ofList ((String.join (lines.map (· ++ "\n"))).toList.map fun c =>
    if c = '⟦' then '\x7b' else if c = '⟧' then '\x7d' else c)

/-- The template of a file for a container. -/
def container : String := ofLines [
  "/*",
  "Code generated by ygen. DO NOT EDIT.",
  "*/",
  "",
  "package ⟦⟦settings.package⟧⟧",
  "",
  "import (",
  "\t\"github.com/yndd/ndd-yang/pkg/leafref\"",
  "\t\"github.com/yndd/ndd-yang/pkg/yentry\"",
  ")",
  "",
  "// init⟦⟦upper_camel container.file_stem⟧⟧ builds the schema entry of ⟦⟦container.xpath⟧⟧",
  "func init⟦⟦upper_camel container.file_stem⟧⟧(p *yentry.Entry, opts " ++
    "...yentry.EntryOption) *yentry.Entry ⟦",
  "\tchildren := map[string]yentry.EntryInitFunc⟦",
  "⟦⟦#each container.children⟧⟧",
  "\t\t\"⟦⟦this.name⟧⟧\": init⟦⟦upper_camel this.file_stem⟧⟧,",
  "⟦⟦/each⟧⟧",
  "\t⟧",
  "\te := &yentry.Entry⟦",
  "\t\tName:             \"⟦⟦container.name⟧⟧\",",
  "\t\tKey:              []string⟦ ⟦⟦#each container.keys⟧⟧\"⟦⟦this⟧⟧\", ⟦⟦/each⟧⟧⟧,",
  "\t\tModule:           \"⟦⟦container.module⟧⟧\",",
  "\t\tNamespace:        \"⟦⟦container.namespace⟧⟧\",",
  "\t\tPrefix:           \"⟦⟦container.prefix⟧⟧\",",
  "\t\tParent:           p,",
  "\t\tChildren:         make(map[string]*yentry.Entry),",
  "\t\tResourceBoundary: ⟦⟦container.resource_boundary⟧⟧,",
  "\t\tHasState:         ⟦⟦container.has_state⟧⟧,",
  "\t\tLeafRefs: []*leafref.LeafRef⟦",
  "⟦⟦#each container.leafrefs⟧⟧",
  "\t\t\t⟦",
  "\t\t\t\tLocalPath:  \"⟦⟦this.local_path⟧⟧\",",
  "\t\t\t\tRemotePath: \"⟦⟦this.remote_path⟧⟧\",",
  "\t\t\t⟧,",
  "⟦⟦/each⟧⟧",
  "\t\t⟧,",
  "\t\tDefaults: map[string]string⟦",
  "⟦⟦#each container.defaults⟧⟧",
  "\t\t\t\"⟦⟦@key⟧⟧\": \"⟦⟦this⟧⟧\",",
  "⟦⟦/each⟧⟧",
  "\t\t⟧,",
  "\t⟧",
  "",
  "\tfor _, opt := range opts ⟦",
  "\t\topt(e)",
  "\t⟧",
  "",
  "\tfor name, initFunction := range children ⟦",
  "\t\te.Children[name] = initFunction(e, yentry.WithLogging(e.Log))",
  "\t⟧",
  "",
  "\treturn e",
  "⟧"]

/-- The template of a file for a resource. -/
def resource : String := ofLines [
  "/*",
  "Code generated by ygen. DO NOT EDIT.",
  "*/",
  "",
  "package ⟦⟦settings.version⟧⟧",
  "",
  "const (",
  "\t// ⟦⟦upper_camel resource.name_with_prefix⟧⟧Kind is the kind of ⟦⟦resource.xpath⟧⟧",
  "\t⟦⟦upper_camel resource.name_with_prefix⟧⟧Kind = " ++
    "\"⟦⟦upper_camel resource.name_with_prefix⟧⟧\"",
  "\t⟦⟦upper_camel resource.name_with_prefix⟧⟧Group = \"⟦⟦settings.api_group⟧⟧\"",
  ")",
  "⟦⟦#each resource.containers⟧⟧",
  "⟦⟦#unless this.synthetic⟧⟧",
  "",
  "// ⟦⟦upper_camel @root.resource.name_with_prefix⟧⟧⟦⟦upper_camel this.full_name⟧⟧ struct",
  "type ⟦⟦upper_camel @root.resource.name_with_prefix⟧⟧⟦⟦upper_camel this.full_name⟧⟧ struct ⟦",
  "⟦⟦#each this.entries⟧⟧",
  "⟦⟦#if (eq this.kind \"leaf\")⟧⟧",
  "\t⟦⟦upper_camel this.name⟧⟧ *string " ++
    "`json:\"⟦⟦this.name⟧⟧⟦⟦#unless this.mandatory⟧⟧,omitempty⟦⟦/unless⟧⟧\"` // ⟦⟦this.type⟧⟧",
  "⟦⟦else if (eq this.kind \"leaf-list\")⟧⟧",
  "\t⟦⟦upper_camel this.name⟧⟧ []*string `json:\"⟦⟦this.name⟧⟧,omitempty\"` // ⟦⟦this.type⟧⟧",
  "⟦⟦else if (eq this.kind \"container\")⟧⟧",
  "\t⟦⟦upper_camel this.name⟧⟧ " ++
    "*⟦⟦upper_camel @root.resource.name_with_prefix⟧⟧⟦⟦upper_camel this.next_name⟧⟧ " ++
    "`json:\"⟦⟦this.name⟧⟧,omitempty\"`",
  "⟦⟦else⟧⟧",
  "\t⟦⟦upper_camel this.name⟧⟧ " ++
    "[]*⟦⟦upper_camel @root.resource.name_with_prefix⟧⟧⟦⟦upper_camel this.next_name⟧⟧ " ++
    "`json:\"⟦⟦this.name⟧⟧,omitempty\"`",
  "⟦⟦/if⟧⟧",
  "⟦⟦/each⟧⟧",
  "⟧",
  "⟦⟦/unless⟧⟧",
  "⟦⟦/each⟧⟧"]

end YangPartition.Template.Standard
