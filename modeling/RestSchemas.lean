import RestSchemas.Py
import RestSchemas.NestedDict
import RestSchemas.StableSort
import RestSchemas.Host
import RestSchemas.Inspector
import RestSchemas.Description
import RestSchemas.Fields
import RestSchemas.Generator
import RestSchemas.Layout
import RestSchemas.Schema
import RestSchemas.Compat
